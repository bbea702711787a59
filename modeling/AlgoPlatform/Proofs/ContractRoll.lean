/-
Whether the three instrument look-ups of the platform agree.

# Three caches, two rules

`KiteBroker` loads the dump again on every new day. The token map of the
tick stream and the reader of the collector load it once, on first use,
and keep it for as long as the process runs. So a contract found today is
looked up by them in an older dump, and after a contract roll it is not
there.

# When they agree

A look-up that was first used on some day answers from that day's dump
(`after_holds`). The three agree on a day exactly if every contract that
can be found in its dump is listed in the two first dumps as well, under
the same symbol, with the same token.
-/
import AlgoPlatform.Model.InstrumentCaches

open Basis

namespace AlgoPlatform

-- ========================================================== last writes

section LastWrite

variable {α ν : Type} {write : α → Option ν} {rows : List α} {v : ν}

/-- A dict entry written in a loop is what the last row that writes it
wrote. -/
theorem foldl_or_eq_some {before : Option ν} :
    rows.foldl (fun entry row => (write row).or entry) before = some v
      ↔ (∃ pre row post, rows = pre ++ row :: post ∧ write row = some v
          ∧ ∀ r ∈ post, write r = none)
        ∨ before = some v ∧ ∀ r ∈ rows, write r = none := by
  induction rows generalizing before with
  | nil =>
      refine ⟨fun h => .inr ⟨h, nofun⟩, fun h => ?_⟩
      rcases h with ⟨pre, row, post, hsplit, _⟩ | ⟨h, _⟩
      · cases pre <;> cases hsplit
      · exact h
  | cons first rows ih =>
      rw [List.foldl_cons, ih]
      constructor
      · intro h
        rcases h with ⟨pre, row, post, rfl, hrow, hpost⟩ | ⟨h, hnone⟩
        · exact .inl ⟨first :: pre, row, post, rfl, hrow, hpost⟩
        · cases hfirst : write first with
          | some w =>
              rw [hfirst] at h
              exact .inl ⟨[], first, rows, rfl, hfirst.trans h, hnone⟩
          | none =>
              rw [hfirst] at h
              exact .inr ⟨h, List.forall_mem_cons.2 ⟨hfirst, hnone⟩⟩
      · intro h
        rcases h with ⟨pre, row, post, hsplit, hrow, hpost⟩ | ⟨h, hnone⟩
        · cases pre with
          | nil =>
              cases hsplit
              refine .inr ⟨?_, hpost⟩
              rw [hrow]
              rfl
          | cons _ pre =>
              cases hsplit
              exact .inl ⟨pre, row, post, rfl, hrow, hpost⟩
        · obtain ⟨hfirst, hrest⟩ := List.forall_mem_cons.1 hnone
          refine .inr ⟨?_, hrest⟩
          rw [hfirst]
          exact h

end LastWrite

-- =============================================== statement vocabulary

/-- The token a row lists for a tradingsymbol. -/
def InstrumentRow.tokenAs (row : InstrumentRow) (symbol : String) :
    Option Nat :=
  if row.tradingsymbol = some symbol ∧ symbol ≠ "" then row.instrumentToken
  else none

/-- The symbol and token a row lists for an option. -/
def InstrumentRow.asOption (row : InstrumentRow) (underlying : String)
    (expiry : Date) (strike : ℚ) (type : OptionType) :
    Option (String × Nat) :=
  if row.For underlying expiry ∧ row.instrumentType = type.value
      ∧ row.strike = some strike ∧ row.tradingsymbol ≠ some "" then
    row.tradingsymbol.bind fun symbol =>
      row.instrumentToken.map fun token => (symbol, token)
  else none

/-- The last row of the dump that lists the symbol gives it the token. -/
def Lists (rows : List InstrumentRow) (symbol : String) (token : Nat) : Prop :=
  ∃ pre row post, rows = pre ++ row :: post ∧ row.tokenAs symbol = some token
    ∧ ∀ r ∈ post, r.tokenAs symbol = none

/-- The last row of the dump that lists the option gives it this symbol
and token. -/
def ListsOption (rows : List InstrumentRow) (query : OptionQuery)
    (symbol : String) (token : Nat) : Prop :=
  ∃ pre row post, rows = pre ++ row :: post
    ∧ row.asOption query.underlying query.expiry query.strike
        query.optionType = some (symbol, token)
    ∧ ∀ r ∈ post, r.asOption query.underlying query.expiry query.strike
        query.optionType = none

namespace InstrumentCaches

/-- When the token map was asked, and for which exchange. -/
def tokenUses (calls : List (Date × Action)) : List (Date × Exchange) :=
  calls.filterMap fun
    | (day, .tokenForInstrument i) => some (day, i.exchange)
    | _ => none

/-- When the collector's reader was asked, and for which exchange. -/
def chainUses (calls : List (Date × Action)) : List (Date × Exchange) :=
  calls.filterMap fun
    | (day, .optionChain _ exchange _) => some (day, exchange)
    | _ => none

/-- On a day, after some calls: a contract the broker finds has the same
token in the token map, and is in the collector's chain. -/
def Agree (listing : Listing) (calls : List (Date × Action)) (today : Date) :
    Prop :=
  ∀ query contract c,
    (after listing calls).findOptionContract listing today query
      = (some contract, c) →
    (c.tokenForInstrument listing today
        ⟨contract.exchange, contract.tradingsymbol⟩).1
      = some contract.instrumentToken
    ∧ (c.optionChain listing today query.underlying query.exchange
        query.expiry).1 query.strike query.optionType
      = some (contract.tradingsymbol, contract.instrumentToken)

/-- Every contract of the day's dump is listed, with its symbol and token,
in the dump of the day the token map was first asked for its exchange and
in that of the day the reader was; where they were not, in today's. -/
def ListedAtFirst (listing : Listing) (calls : List (Date × Action))
    (today : Date) : Prop :=
  ∀ query contract, findIn (listing today query.exchange) query
      = some contract →
    Lists (listing ((firstUse (tokenUses calls) contract.exchange).getD today)
        contract.exchange) contract.tradingsymbol contract.instrumentToken
    ∧ ListsOption (listing ((firstUse (chainUses calls)
          query.exchange).getD today) query.exchange) query
        contract.tradingsymbol contract.instrumentToken

-- ================================================================ dicts

private theorem putSymbol_apply (symbols : String → Option Nat)
    (row : InstrumentRow) (symbol : String) :
    putSymbol symbols row symbol = (row.tokenAs symbol).or (symbols symbol) := by
  unfold putSymbol InstrumentRow.tokenAs
  cases row.instrumentToken with
  | none => simp
  | some token =>
      cases row.tradingsymbol with
      | none => simp
      | some name =>
          by_cases hempty : name = ""
          · subst hempty
            by_cases hs : symbol = "" <;> simp [hs, eq_comm]
          · by_cases hs : symbol = name
            · subst hs
              simp [hempty]
            · simp [hempty, hs, Ne.symm hs]

theorem symbolsOf_eq_some {rows : List InstrumentRow} {symbol : String}
    {token : Nat} :
    symbolsOf rows symbol = some token ↔ Lists rows symbol token := by
  have hfold : ∀ symbols : String → Option Nat,
      rows.foldl putSymbol symbols symbol
        = rows.foldl (fun entry row => (row.tokenAs symbol).or entry)
            (symbols symbol) := by
    induction rows with
    | nil => exact fun _ => rfl
    | cons row rows ih =>
        intro symbols
        rw [List.foldl_cons, ih, List.foldl_cons, putSymbol_apply]
  unfold symbolsOf
  rw [hfold, foldl_or_eq_some]
  exact or_iff_left fun h => nomatch h.1

private theorem putContract_apply (query : OptionQuery)
    (chain : ℚ → OptionType → Option (String × Nat)) (row : InstrumentRow) :
    putContract query.underlying query.expiry chain row query.strike
        query.optionType
      = (row.asOption query.underlying query.expiry query.strike
          query.optionType).or (chain query.strike query.optionType) := by
  have hvalue : query.optionType.value = "CE"
      ∨ query.optionType.value = "PE" := by
    cases query.optionType with
    | ce => exact .inl rfl
    | pe => exact .inr rfl
  unfold putContract InstrumentRow.asOption
  cases row.instrumentToken with
  | none => cases row.tradingsymbol <;> simp
  | some token =>
      cases row.tradingsymbol with
      | none => simp
      | some symbol =>
          cases row.strike with
          | none => simp
          | some strike =>
              by_cases hfor : row.For query.underlying query.expiry
              · by_cases htype : row.instrumentType = query.optionType.value
                · by_cases hempty : symbol = ""
                  · simp [hempty]
                  · by_cases hstrike : query.strike = strike
                    · subst hstrike
                      simp [hfor, htype, hempty, hvalue]
                    · simp [hfor, htype, hempty, hvalue, hstrike,
                        Ne.symm hstrike]
                · simp only [hfor, htype, true_and, false_and, and_false,
                    if_false, Option.none_or]
                  split
                  · exact if_neg fun h => htype h.2.symm
                  · rfl
              · simp [hfor]

theorem chainOf_eq_some {rows : List InstrumentRow} {query : OptionQuery}
    {symbol : String} {token : Nat} :
    chainOf rows query.underlying query.expiry query.strike query.optionType
        = some (symbol, token)
      ↔ ListsOption rows query symbol token := by
  have hfold : ∀ chain : ℚ → OptionType → Option (String × Nat),
      rows.foldl (putContract query.underlying query.expiry) chain
          query.strike query.optionType
        = rows.foldl (fun entry row => (row.asOption query.underlying
            query.expiry query.strike query.optionType).or entry)
            (chain query.strike query.optionType) := by
    induction rows with
    | nil => exact fun _ => rfl
    | cons row rows ih =>
        intro chain
        rw [List.foldl_cons, ih, List.foldl_cons, putContract_apply]
  unfold chainOf
  rw [hfold, foldl_or_eq_some]
  exact or_iff_left fun h => nomatch h.1

-- ================================================================= runs

variable (listing : Listing)

/-- What the three caches hold after some calls. -/
structure Holds (c : InstrumentCaches) (calls : List (Date × Action)) :
    Prop where
  broker : c.broker.Dated listing
  tokenMap : c.tokenMap.Holds (fun day e => symbolsOf (listing day e))
    (tokenUses calls)
  reader : c.reader.Holds listing (chainUses calls)

private theorem uses_snoc (calls : List (Date × Action))
    (call : Date × Action) :
    tokenUses (calls ++ [call]) = tokenUses calls ++ tokenUses [call]
      ∧ chainUses (calls ++ [call]) = chainUses calls ++ chainUses [call] :=
  ⟨List.filterMap_append, List.filterMap_append⟩

/-- One call keeps it. -/
theorem Holds.step {c : InstrumentCaches} {calls : List (Date × Action)}
    (h : Holds listing c calls) (call : Date × Action) :
    Holds listing (c.step listing call) (calls ++ [call]) := by
  obtain ⟨htokens, hchains⟩ := uses_snoc calls call
  obtain ⟨day, action⟩ := call
  have htokenMap := h.tokenMap
  have hreader := h.reader
  cases action with
  | findOptionContract query =>
      rw [← List.append_nil (tokenUses calls)] at htokenMap
      rw [← List.append_nil (chainUses calls)] at hreader
      exact ⟨(h.broker.get day query.exchange).2, htokens ▸ htokenMap,
        hchains ▸ hreader⟩
  | refreshInstruments exchange =>
      rw [← List.append_nil (tokenUses calls)] at htokenMap
      rw [← List.append_nil (chainUses calls)] at hreader
      exact ⟨h.broker.store day exchange, htokens ▸ htokenMap,
        hchains ▸ hreader⟩
  | tokenForInstrument i =>
      rw [← List.append_nil (chainUses calls)] at hreader
      exact ⟨h.broker, htokens ▸ (htokenMap.get day i.exchange).2,
        hchains ▸ hreader⟩
  | optionChain underlying exchange expiry =>
      rw [← List.append_nil (tokenUses calls)] at htokenMap
      exact ⟨h.broker, htokens ▸ htokenMap,
        hchains ▸ (hreader.get day exchange).2⟩

/-- So after any calls each cache answers by its own rule. -/
theorem after_holds (calls : List (Date × Action)) :
    Holds listing (after listing calls) calls := by
  induction calls using List.reverseRecOn with
  | nil => exact ⟨nofun, once_holds_nil, once_holds_nil⟩
  | append_singleton calls call ih =>
      unfold after at ih ⊢
      rw [List.foldl_append]
      exact ih.step listing call

/-- The look-ups agree on a day exactly if every contract of its dump is
listed in the dumps of the first uses. -/
theorem agree_iff (calls : List (Date × Action)) (today : Date) :
    Agree listing calls today ↔ ListedAtFirst listing calls today := by
  have hafter := after_holds listing calls
  have hask : ∀ i : InstrumentIdentifier, ((after listing
      calls).tokenForInstrument listing today i).1
        = symbolsOf (listing ((firstUse (tokenUses calls) i.exchange).getD
            today) i.exchange) i.tradingsymbol := fun i =>
    congrArg (· i.tradingsymbol) (hafter.tokenMap.get today i.exchange).1
  have hchain : ∀ underlying exchange expiry, ((after listing
      calls).optionChain listing today underlying exchange expiry).1
        = chainOf (listing ((firstUse (chainUses calls) exchange).getD
            today) exchange) underlying expiry := fun _ exchange _ =>
    congrArg (chainOf · _ _) (hafter.reader.get today exchange).1
  have hfind : ∀ query, ((after listing calls).findOptionContract listing
      today query).1 = findIn (listing today query.exchange) query :=
    fun query => congrArg (findIn · query)
      (hafter.broker.get today query.exchange).1
  constructor
  · intro hagree query contract hcontract
    obtain ⟨htoken, hin⟩ := hagree query contract _
      (Prod.ext ((hfind query).trans hcontract) rfl)
    refine ⟨symbolsOf_eq_some.1 ((hask _).symm.trans htoken),
      chainOf_eq_some.1 ?_⟩
    rw [← hchain]
    exact hin
  · intro hlisted query contract c hfound
    have hcontract : findIn (listing today query.exchange) query
        = some contract := (hfind query).symm.trans (congrArg Prod.fst hfound)
    obtain ⟨htoken, hin⟩ := hlisted query contract hcontract
    -- finding a contract touches neither of the other caches
    obtain rfl : _ = c := congrArg Prod.snd hfound
    refine ⟨(hask _).trans (symbolsOf_eq_some.2 htoken), ?_⟩
    have hin := chainOf_eq_some.2 hin
    rw [← hchain] at hin
    exact hin

-- ============================================================== a roll

/-- The row of a weekly NIFTY call. -/
private def weeklyCall (instrumentToken : Nat) (tradingsymbol : String)
    (expiry : Date) : InstrumentRow where
  instrumentToken := some instrumentToken
  exchange := some "NFO"
  tradingsymbol := some tradingsymbol
  name := some "NIFTY"
  expiry := some expiry
  strike := some 24000
  instrumentType := "CE"
  lotSize := 65

/-- Two weeks of calls: the week that expires is gone from the next day's
dump, and another is listed. -/
def weeklies : Listing := fun day _ =>
  if day = ⟨2026, 7, 14, by decide⟩ then
    [weeklyCall 11001 "NIFTY2671424000CE" ⟨2026, 7, 14, by decide⟩]
  else [weeklyCall 11002 "NIFTY2672124000CE" ⟨2026, 7, 21, by decide⟩]

/-- The process subscribed on the day before. -/
def expiryDay : List (Date × Action) :=
  [(⟨2026, 7, 14, by decide⟩, .tokenForInstrument ⟨.nfo, "NIFTY2671424000CE"⟩)]

/-- The new week's call is found, and the token map does not know it. -/
theorem rolled_away :
    ¬ Agree weeklies expiryDay ⟨2026, 7, 15, by decide⟩ := by
  intro hagree
  let query : OptionQuery :=
    ⟨"NIFTY", ⟨2026, 7, 21, by decide⟩, 24000, .ce, .nfo⟩
  have hunknown := (hagree query
    { instrumentToken := 11002, exchange := .nfo
      tradingsymbol := "NIFTY2672124000CE", name := "NIFTY"
      lotSize := 65, tickSize := 1 / 20
      expiry := some ⟨2026, 7, 21, by decide⟩, strike := some 24000
      optionType := some .ce } _ (Prod.ext (by decide +kernel) rfl)).1
  exact absurd hunknown (by decide +kernel)

end InstrumentCaches

end AlgoPlatform
