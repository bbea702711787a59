/-
What a foreign row of the account's book does to the platform's own.

# One row, every read

`get_orders` and `get_positions` map their rows one by one and build the
list as a whole, so the first row that does not map ends the read, and
with it the tag look-up. A product or an order type the platform does not
trade has a default; an exchange it does not trade has none.

# Which books are read

`MappableOrder` and `MappablePosition` say, field by field, which rows
map; a book is read exactly if every row of it does, whoever placed it.
-/
import AlgoPlatform.Model.KiteMapper
import Mathlib.Tactic.Common

namespace AlgoPlatform

-- ============================================================= results

section Results

variable {ε α β : Type}

/-- The computation returns. -/
def Returns (x : Except ε α) : Prop := ∃ a, x = .ok a

theorem returns_ok (a : α) : Returns (.ok a : Except ε α) := ⟨a, rfl⟩

theorem not_returns_error (e : ε) : ¬ Returns (.error e : Except ε α) := nofun

theorem returns_pure (a : α) : Returns (pure a : Except ε α) := ⟨a, rfl⟩

/-- A sequence returns if its parts do. -/
theorem returns_bind {x : Except ε α} {f : α → Except ε β} :
    Returns (x >>= f) ↔ ∃ a, x = .ok a ∧ Returns (f a) := by
  cases x with
  | error e => exact ⟨fun ⟨_, h⟩ => (nomatch h), fun ⟨_, h, _⟩ => (nomatch h)⟩
  | ok a =>
      refine ⟨fun h => ⟨a, rfl, h⟩, fun ⟨a', ha, h⟩ => ?_⟩
      cases ha
      exact h

/-- A list is built exactly if every element is. -/
theorem mapM_returns {f : α → Except ε β} {rows : List α} :
    Returns (rows.mapM f) ↔ ∀ row ∈ rows, Returns (f row) := by
  induction rows with
  | nil => exact ⟨fun _ _ h => (nomatch h), fun _ => returns_pure []⟩
  | cons row rows ih =>
      rw [List.mapM_cons, returns_bind, List.forall_mem_cons, ← ih]
      constructor
      · intro ⟨b, hb, hrest⟩
        obtain ⟨bs, hbs, _⟩ := returns_bind.1 hrest
        exact ⟨⟨b, hb⟩, bs, hbs⟩
      · intro ⟨⟨b, hb⟩, bs, hbs⟩
        exact ⟨b, hb, returns_bind.2 ⟨bs, hbs, returns_pure _⟩⟩

/-- What was built has an element for every row. -/
theorem mem_mapM {f : α → Except ε β} {rows : List α} {bs : List β}
    (h : rows.mapM f = .ok bs) {row : α} (hrow : row ∈ rows) :
    ∃ b ∈ bs, f row = .ok b := by
  induction rows generalizing bs with
  | nil => cases hrow
  | cons first rows ih =>
      rw [List.mapM_cons] at h
      obtain ⟨b, hb, hrest⟩ := returns_bind.1 ⟨bs, h⟩
      obtain ⟨rest, hbs, _⟩ := returns_bind.1 hrest
      rw [hb] at h
      have hbound : (do let bs' ← rows.mapM f; pure (b :: bs')) = Except.ok bs :=
        h
      rw [hbs] at hbound
      cases hbound
      rcases List.mem_cons.1 hrow with rfl | hin
      · exact ⟨b, List.mem_cons_self, hb⟩
      · obtain ⟨b', hmem, hb'⟩ := ih hbs hin
        exact ⟨b', List.mem_cons_of_mem _ hmem, hb'⟩

end Results

variable {text : KiteText} {data : KiteRow} {value : KiteValue}

-- =============================================== statement vocabulary

namespace KiteValue

/-- A number, nothing, or a text that reads as one. -/
def Numeric (text : KiteText) : KiteValue → Prop
  | .null | .int _ | .float _ => True
  | .str s => s = "" ∨ text.decimal s ≠ none
  | .bool _ | .datetime _ => False

/-- A text, or a value that counts as nothing. -/
def Textual (value : KiteValue) : Prop :=
  value.truthy = true → ∃ s, value = .str s

end KiteValue

/-- What is under the key of a row that must have it. -/
def Exchanged (data : KiteRow) : Prop :=
  ∃ value ∈ exchangeFromKite.map Prod.fst, data.lookup "exchange" = some value

/-- A row of the order book the mapper takes. -/
structure MappableOrder (text : KiteText) (data : KiteRow) : Prop where
  orderId : data.lookup "order_id" ≠ none
  exchange : Exchanged data
  tradingsymbol : ∃ s, data.lookup "tradingsymbol" = some (.str s)
  quantities : ∃ quantity filled,
    (data.get "quantity").count text = .ok quantity
      ∧ (data.get "filled_quantity").count text = .ok filled
      ∧ 0 < quantity ∧ 0 ≤ filled ∧ filled ≤ quantity
  prices : ∀ key ∈ ["average_price", "trigger_price"],
    (data.get key).Numeric text
  texts : ∀ key ∈ ["status", "tag", "status_message"], (data.get key).Textual

/-- A row of the position book the mapper takes. -/
structure MappablePosition (text : KiteText) (data : KiteRow) : Prop where
  exchange : Exchanged data
  tradingsymbol : ∃ s, data.lookup "tradingsymbol" = some (.str s)
  quantity : Returns ((data.get "quantity").count text)
  prices : ∀ key ∈ ["average_price", "last_price", "pnl"],
    (data.get key).Numeric text

-- ============================================================== fields

namespace KiteValue

theorem decimal_returns : Returns (value.decimal text) ↔ value.Numeric text := by
  cases value with
  | null => exact iff_of_true (returns_ok _) trivial
  | int n => exact iff_of_true (returns_ok _) trivial
  | float x => exact iff_of_true (returns_ok _) trivial
  | bool b => exact iff_of_false (not_returns_error _) id
  | datetime t => exact iff_of_false (not_returns_error _) id
  | str s =>
      unfold decimal Numeric
      by_cases hs : s = ""
      · simp [hs, Returns]
      · cases hd : text.decimal s <;> simp [hs, hd, Returns]

theorem priceOrNone_returns :
    Returns (value.priceOrNone text) ↔ value.Numeric text := by
  rw [← decimal_returns]
  unfold priceOrNone
  rw [returns_bind]
  exact exists_congr fun a => and_iff_left (returns_pure _)

theorem decimalOrZero_returns :
    Returns (value.decimalOrZero text) ↔ value.Numeric text := by
  rw [← decimal_returns]
  unfold decimalOrZero
  rw [returns_bind]
  exact exists_congr fun a => and_iff_left (returns_pure _)

theorem optionalText_returns :
    Returns value.optionalText ↔ value.Textual := by
  unfold optionalText Textual
  split
  · rename_i h
    cases value <;> simp [Returns, h]
  · rename_i h
    exact iff_of_true (returns_ok _) fun ht => absurd ht h

theorem asText_returns : Returns value.asText ↔ ∃ s, value = .str s := by
  cases value <;> simp [asText, Returns]

end KiteValue

theorem status_returns : Returns (fromKiteStatus value) ↔ value.Textual := by
  unfold fromKiteStatus KiteValue.Textual
  split
  · rename_i h
    cases value <;> simp [Returns, h]
  · rename_i h
    exact iff_of_true (returns_ok _) fun ht => absurd ht h

theorem exchange_returns : Returns (fromKiteExchange value)
    ↔ value ∈ exchangeFromKite.map Prod.fst := by
  unfold fromKiteExchange
  cases hlookup : exchangeFromKite.lookup value with
  | some exchange =>
      refine iff_of_true (returns_ok _) ?_
      have hmem := (List.lookup_isSome_iff.1
        (Option.isSome_iff_exists.2 ⟨exchange, hlookup⟩))
      obtain ⟨entry, hentry, heq⟩ := hmem
      exact List.mem_map.2 ⟨entry, hentry, (beq_iff_eq.1 heq).symm⟩
  | none =>
      refine iff_of_false (not_returns_error _) fun hmem => ?_
      obtain ⟨entry, hentry, heq⟩ := List.mem_map.1 hmem
      have hnone := List.lookup_eq_none_iff.1 hlookup entry hentry
      rw [heq] at hnone
      simp at hnone

theorem item_eq_ok {key : String} :
    data.item key = .ok value ↔ data.lookup key = some value := by
  unfold KiteRow.item
  cases data.lookup key <;> simp

/-- A row with an exchange the mapper knows. -/
private theorem exchanged_iff : Exchanged data ↔ ∃ value,
    data.item "exchange" = .ok value ∧ Returns (fromKiteExchange value) := by
  unfold Exchanged
  refine exists_congr fun value => ?_
  rw [item_eq_ok, exchange_returns, and_comm]

-- ================================================================ rows

theorem remapped_returns {α : Type} {e : KiteMappingError}
    {body : Except KiteExc α} :
    Returns (remapped e body) ↔ Returns body := by
  unfold remapped
  split
  · exact iff_of_false (not_returns_error _) (not_returns_error _)
  · exact iff_of_false (not_returns_error _) (not_returns_error _)
  · exact iff_of_false (not_returns_error _) (not_returns_error _)
  · exact Iff.rfl

/-- The mapper takes an order row exactly if its fields map. -/
theorem toBrokerOrder_returns :
    Returns (toBrokerOrder text data) ↔ MappableOrder text data := by
  unfold toBrokerOrder
  rw [remapped_returns]
  unfold readOrder
  simp only [returns_bind]
  constructor
  · intro ⟨filled, hfilled, quantity, hquantity, orderId, horderId, status,
      hstatus, value, hvalue, exchange, hexchange, symbol, hsymbol, average,
      haverage, trigger, htrigger, tag, htag, name, hname, message, hmessage,
      hbounds⟩
    refine ⟨?_, exchanged_iff.2 ⟨value, hvalue, exchange, hexchange⟩, ?_,
      ⟨quantity, filled, hquantity, hfilled, ?_⟩, ?_, ?_⟩
    · rw [item_eq_ok.1 horderId]
      exact nofun
    · obtain ⟨s, rfl⟩ := KiteValue.asText_returns.1 ⟨name, hname⟩
      exact ⟨s, item_eq_ok.1 hsymbol⟩
    · by_contra hnot
      rw [dif_neg hnot] at hbounds
      exact not_returns_error _ hbounds
    · rw [List.forall_mem_cons, List.forall_mem_singleton]
      exact ⟨KiteValue.priceOrNone_returns.1 ⟨average, haverage⟩,
        KiteValue.priceOrNone_returns.1 ⟨trigger, htrigger⟩⟩
    · rw [List.forall_mem_cons, List.forall_mem_cons, List.forall_mem_singleton]
      exact ⟨status_returns.1 ⟨status, hstatus⟩,
        KiteValue.optionalText_returns.1 ⟨tag, htag⟩,
        KiteValue.optionalText_returns.1 ⟨message, hmessage⟩⟩
  · intro h
    obtain ⟨orderId, horderId⟩ := Option.ne_none_iff_exists'.1 h.orderId
    obtain ⟨value, hvalue, exchange, hexchange⟩ := exchanged_iff.1 h.exchange
    obtain ⟨name, hname⟩ := h.tradingsymbol
    obtain ⟨quantity, filled, hquantity, hfilled, hbounds⟩ := h.quantities
    have hprices := h.prices
    rw [List.forall_mem_cons, List.forall_mem_singleton] at hprices
    have htexts := h.texts
    rw [List.forall_mem_cons, List.forall_mem_cons,
      List.forall_mem_singleton] at htexts
    obtain ⟨average, haverage⟩ := KiteValue.priceOrNone_returns.2 hprices.1
    obtain ⟨trigger, htrigger⟩ := KiteValue.priceOrNone_returns.2 hprices.2
    obtain ⟨status, hstatus⟩ := status_returns.2 htexts.1
    obtain ⟨tag, htag⟩ := KiteValue.optionalText_returns.2 htexts.2.1
    obtain ⟨message, hmessage⟩ := KiteValue.optionalText_returns.2 htexts.2.2
    refine ⟨filled, hfilled, quantity, hquantity, orderId,
      item_eq_ok.2 horderId, status, hstatus, value, hvalue, exchange,
      hexchange, .str name, item_eq_ok.2 hname, average, haverage, trigger,
      htrigger, tag, htag, name, rfl, message, hmessage, ?_⟩
    rw [dif_pos hbounds]
    exact returns_pure _

/-- The mapper takes a position row exactly if its fields map. -/
theorem toBrokerPosition_returns :
    Returns (toBrokerPosition text data) ↔ MappablePosition text data := by
  unfold toBrokerPosition
  rw [remapped_returns]
  unfold readPosition
  simp only [returns_bind]
  constructor
  · intro ⟨value, hvalue, exchange, hexchange, symbol, hsymbol, quantity,
      hquantity, average, haverage, last, hlast, pnl, hpnl, name, hname, _⟩
    refine ⟨exchanged_iff.2 ⟨value, hvalue, exchange, hexchange⟩, ?_,
      ⟨quantity, hquantity⟩, ?_⟩
    · obtain ⟨s, rfl⟩ := KiteValue.asText_returns.1 ⟨name, hname⟩
      exact ⟨s, item_eq_ok.1 hsymbol⟩
    · rw [List.forall_mem_cons, List.forall_mem_cons, List.forall_mem_singleton]
      exact ⟨KiteValue.decimalOrZero_returns.1 ⟨average, haverage⟩,
        KiteValue.decimalOrZero_returns.1 ⟨last, hlast⟩,
        KiteValue.decimalOrZero_returns.1 ⟨pnl, hpnl⟩⟩
  · intro h
    obtain ⟨value, hvalue, exchange, hexchange⟩ := exchanged_iff.1 h.exchange
    obtain ⟨name, hname⟩ := h.tradingsymbol
    obtain ⟨quantity, hquantity⟩ := h.quantity
    have hprices := h.prices
    rw [List.forall_mem_cons, List.forall_mem_cons,
      List.forall_mem_singleton] at hprices
    obtain ⟨average, haverage⟩ := KiteValue.decimalOrZero_returns.2 hprices.1
    obtain ⟨last, hlast⟩ := KiteValue.decimalOrZero_returns.2 hprices.2.1
    obtain ⟨pnl, hpnl⟩ := KiteValue.decimalOrZero_returns.2 hprices.2.2
    exact ⟨value, hvalue, exchange, hexchange, .str name, item_eq_ok.2 hname,
      quantity, hquantity, average, haverage, last, hlast, pnl, hpnl, name, rfl,
      returns_pure _⟩

-- =============================================================== reads

namespace KiteBroker

/-- The latest of the candidates is one of them, and none was placed
later. -/
theorem latest_spec (first : KiteOrder) (os : List KiteOrder) :
    latest first os ∈ first :: os ∧ ∀ o ∈ first :: os,
      o.placedAt.getD minAware ≤ (latest first os).placedAt.getD minAware := by
  induction os generalizing first with
  | nil =>
      refine ⟨List.mem_cons_self, fun o ho => ?_⟩
      rw [List.mem_singleton.1 ho]
      exact le_refl _
  | cons o os ih =>
      unfold latest
      split
      · rename_i hlater
        obtain ⟨hmem, hmax⟩ := ih o
        refine ⟨List.mem_cons_of_mem _ hmem, fun x hx => ?_⟩
        rcases List.mem_cons.1 hx with rfl | hx
        · exact le_of_lt (lt_of_lt_of_le hlater (hmax o List.mem_cons_self))
        · exact hmax x hx
      · rename_i hnot
        obtain ⟨hmem, hmax⟩ := ih first
        refine ⟨?_, fun x hx => ?_⟩
        · rcases List.mem_cons.1 hmem with heq | hmem
          · rw [heq]
            exact List.mem_cons_self
          · exact List.mem_cons_of_mem _ (List.mem_cons_of_mem _ hmem)
        · rcases List.mem_cons.1 hx with rfl | hx
          · exact hmax _ List.mem_cons_self
          · rcases List.mem_cons.1 hx with rfl | hx
            · exact le_trans (not_lt.1 hnot) (hmax _ List.mem_cons_self)
            · exact hmax x (List.mem_cons_of_mem _ hx)

/-- The reads of the two books return and cover the rows that are ours: a
read of a book has an element for each of them, and a look-up of a tag
one of ours bears finds an order with that tag, placed no earlier. -/
structure SeesOurs (text : KiteText) (orders positions : List KiteRow)
    (ours : KiteRow → Prop) : Prop where
  getOrders : ∃ os, getOrders text orders = .ok os ∧ ∀ row ∈ orders,
    ours row → ∃ o ∈ os, toBrokerOrder text row = .ok o
  getPositions : ∃ ps, getPositions text positions = .ok ps
    ∧ ∀ row ∈ positions, ours row →
      ∃ p ∈ ps, toBrokerPosition text row = .ok p
  findOrderByTag : ∀ tag, ∃ found, findOrderByTag text orders tag = .ok found
    ∧ ∀ row ∈ orders, ours row → ∀ o, toBrokerOrder text row = .ok o →
      o.order.tag = some tag → ∃ o', found = some o'
        ∧ o'.order.tag = some tag
        ∧ o.placedAt.getD minAware ≤ o'.placedAt.getD minAware

/-- A tag look-up, over a book that maps. -/
private theorem findOrderByTag_of {orders : List KiteRow}
    {os : List KiteOrder} (h : getOrders text orders = .ok os) (tag : String) :
    findOrderByTag text orders tag
      = match os.filter (·.order.tag = some tag) with
        | [] => pure none
        | o :: os => pure (some (latest o os)) := by
  unfold findOrderByTag
  rw [h]
  rfl

/-- It finds the latest order of the tag. -/
private theorem findOrderByTag_covers {orders : List KiteRow}
    {os : List KiteOrder} (h : getOrders text orders = .ok os) (tag : String) :
    ∃ found, findOrderByTag text orders tag = .ok found ∧ ∀ o ∈ os,
      o.order.tag = some tag → ∃ o', found = some o'
        ∧ o'.order.tag = some tag
        ∧ o.placedAt.getD minAware ≤ o'.placedAt.getD minAware := by
  rw [findOrderByTag_of h]
  cases hmatches : os.filter (·.order.tag = some tag) with
  | nil =>
      refine ⟨none, rfl, fun o ho htag => ?_⟩
      have hmem : o ∈ os.filter (·.order.tag = some tag) :=
        List.mem_filter.2 ⟨ho, decide_eq_true htag⟩
      rw [hmatches] at hmem
      cases hmem
  | cons first rest =>
      obtain ⟨hlatest, hmax⟩ := latest_spec first rest
      refine ⟨some (latest first rest), rfl, fun o ho htag =>
        ⟨_, rfl, ?_, ?_⟩⟩
      · rw [← hmatches] at hlatest
        exact of_decide_eq_true (List.mem_filter.1 hlatest).2
      · refine hmax o ?_
        rw [← hmatches]
        exact List.mem_filter.2 ⟨ho, decide_eq_true htag⟩

/-- Where the rows that are ours map, the reads return and cover them
exactly if every other row of the books maps too. -/
theorem seesOurs_iff (text : KiteText) (orders positions : List KiteRow)
    (ours : KiteRow → Prop)
    (horders : ∀ row ∈ orders, ours row → MappableOrder text row)
    (hpositions : ∀ row ∈ positions, ours row → MappablePosition text row) :
    SeesOurs text orders positions ours
      ↔ (∀ row ∈ orders, ¬ ours row → MappableOrder text row)
        ∧ ∀ row ∈ positions, ¬ ours row → MappablePosition text row := by
  constructor
  · intro h
    obtain ⟨os, hos, _⟩ := h.getOrders
    obtain ⟨ps, hps, _⟩ := h.getPositions
    exact ⟨fun row hrow _ =>
        toBrokerOrder_returns.1 (mapM_returns.1 ⟨os, hos⟩ row hrow),
      fun row hrow _ =>
        toBrokerPosition_returns.1 (mapM_returns.1 ⟨ps, hps⟩ row hrow)⟩
  · intro ⟨hforeignOrders, hforeignPositions⟩
    have hallOrders : ∀ row ∈ orders, Returns (toBrokerOrder text row) := by
      intro row hrow
      by_cases hours : ours row
      · exact toBrokerOrder_returns.2 (horders row hrow hours)
      · exact toBrokerOrder_returns.2 (hforeignOrders row hrow hours)
    have hallPositions : ∀ row ∈ positions,
        Returns (toBrokerPosition text row) := by
      intro row hrow
      by_cases hours : ours row
      · exact toBrokerPosition_returns.2 (hpositions row hrow hours)
      · exact toBrokerPosition_returns.2 (hforeignPositions row hrow hours)
    obtain ⟨os, hos⟩ := mapM_returns.2 hallOrders
    obtain ⟨ps, hps⟩ := mapM_returns.2 hallPositions
    refine ⟨⟨os, hos, fun row hrow _ => mem_mapM hos hrow⟩,
      ⟨ps, hps, fun row hrow _ => mem_mapM hps hrow⟩, fun tag => ?_⟩
    obtain ⟨found, hfound, hcovers⟩ := findOrderByTag_covers hos tag
    refine ⟨found, hfound, fun row hrow _ o ho htag => ?_⟩
    obtain ⟨o', hmem, ho'⟩ := mem_mapM hos hrow
    rw [ho] at ho'
    cases ho'
    exact hcovers o hmem htag

-- ============================================================= samples

/-- Numbers come as numbers in the sample books. -/
def sampleText : KiteText where
  int _ := none
  decimal _ := none
  printed
    | .str s => s
    | _ => ""

/-- An order as Kite lists it. -/
def sampleRow (id exchange symbol product orderType : String)
    (tag : KiteValue) : KiteRow :=
  [("order_id", .str id), ("status", .str "COMPLETE"),
    ("exchange", .str exchange), ("tradingsymbol", .str symbol),
    ("transaction_type", .str "SELL"), ("product", .str product),
    ("order_type", .str orderType), ("quantity", .int 75),
    ("filled_quantity", .int 75), ("average_price", .float (241 / 2)),
    ("trigger_price", .int 0), ("tag", tag), ("status_message", .null),
    ("order_timestamp", .datetime 1783396205)]

/-- The platform's own order, and two placed by hand. -/
def ourRow : KiteRow :=
  sampleRow "1" "NFO" "NIFTY24000CE" "MIS" "MARKET" (.str "E1-CE")
def shareRow : KiteRow :=
  sampleRow "2" "NSE" "INFY" "CNC" "SL-M" .null
def commodityRow : KiteRow :=
  sampleRow "3" "MCX" "GOLDM26AUGFUT" "NRML" "LIMIT" .null

private theorem ourRow_mappable : MappableOrder sampleText ourRow :=
  toBrokerOrder_returns.1 ⟨_, rfl⟩

/-- One commodity order placed by hand, and the book is not read. -/
theorem commodity_hides :
    ¬ ∀ (text : KiteText) (orders positions : List KiteRow)
        (ours : KiteRow → Prop),
      (∀ row ∈ orders, ours row → MappableOrder text row) →
      (∀ row ∈ positions, ours row → MappablePosition text row) →
      SeesOurs text orders positions ours := by
  intro h
  have hsees := h sampleText [ourRow, commodityRow] [] (· = ourRow)
    (fun row _ hrow => hrow ▸ ourRow_mappable) nofun
  obtain ⟨os, hos, _⟩ := hsees.getOrders
  have hraises : getOrders sampleText [ourRow, commodityRow]
      = .error (.mapping (.unmappableExchange (.str "MCX"))) := rfl
  rw [hraises] at hos
  cases hos

/-- Shares sold by hand are read along with our order. -/
theorem seesOurs_share :
    SeesOurs sampleText [shareRow, ourRow] [] (· = ourRow) :=
  (seesOurs_iff sampleText [shareRow, ourRow] [] (· = ourRow)
    (fun _ _ hrow => hrow ▸ ourRow_mappable) nofun).2
    ⟨fun row hrow hforeign => by
      rcases List.mem_cons.1 hrow with rfl | hrow
      · exact toBrokerOrder_returns.1 ⟨_, rfl⟩
      · exact absurd (List.mem_singleton.1 hrow) hforeign, nofun⟩

end KiteBroker

end AlgoPlatform
