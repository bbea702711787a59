/-
Which row a broker snapshot reaches.

# The law

Both writers look a snapshot's row up by broker order id, and by tag if
no row has the id. The tag lookup is meant for a row whose id is not
known yet, but it does not ask for one: a row bound to another id under
the same tag is found just as well. A snapshot touches its own order
only, exactly when no row is in that position.
-/
import AlgoPlatform.Model.Reconciliation
import AlgoPlatform.Proofs.OrderConvergence

open Basis Basis.Session

namespace AlgoPlatform

-- ============================================================== the law

/-- No row bound to an id other than `id` has changed. -/
def KeepsOthers (id : String) (r r' : Rows) : Prop :=
  ∀ (i : Nat) (o : Order) (other : String), r.orders[i]? = some o →
    o.brokerOrderId = some other → other ≠ id → r'.orders[i]? = some o

/-- A broker snapshot with this id and tag touches no order but its own,
on the push path and on the reconcile path. -/
structure TouchesOnlyOwn (db : Db) (id tag : String) : Prop where
  process : ∀ bo : BrokerOrder, bo.brokerOrderId = id → bo.tag = some tag →
    KeepsOthers id db.rows (OrderUpdateProcessor.process bo db).2.rows
  resolve : ∀ bo : BrokerOrder, bo.brokerOrderId = id → bo.tag = some tag →
    ∀ intentId intent, db.rows.intents[intentId]? = some intent →
    intent.brokerTag = tag → ∀ item db',
    ReconciliationEngine.resolveIntentAgainstOrder intentId intent bo db
      = .ok (item, db') →
    KeepsOthers id db.rows db'.rows

/-- The one row under a tag, where it is bound to an id that is not
`id`. -/
structure BoundElsewhere (r : Rows) (id tag : String) (o : Order) :
    Prop where
  only : ∃ i, select (fun o => decide (o.brokerTag = some tag)) r.orders
    = [(i, o)]
  bound : ∃ other, o.brokerOrderId = some other ∧ other ≠ id

/-- No row is bound to `id`. -/
def Unbound (r : Rows) (id : String) : Prop :=
  select (fun o => decide (o.brokerOrderId = some id)) r.orders = []

/-- The push path falls back to the tag and finds an open row of another
order. -/
def PushMisdirected (r : Rows) (id tag : String) : Prop :=
  tag ≠ "" ∧ (id = "" ∨ Unbound r id)
    ∧ ∃ o, BoundElsewhere r id tag o ∧ o.status.isTerminal = false

/-- The reconcile path falls back to the tag of an intent and finds a row
of another order, open or not. -/
def ResolveMisdirected (r : Rows) (id tag : String) : Prop :=
  Unbound r id ∧ (∃ intent ∈ r.intents, intent.brokerTag = tag)
    ∧ ∃ o, BoundElsewhere r id tag o

-- ====================================================== one row at a time

/-- Nothing but the order row at `i` has changed, and no row is gone. -/
def AgreesOff (i : Nat) (r r' : Rows) : Prop :=
  ∀ j, j ≠ i → j < r.orders.length → r'.orders[j]? = r.orders[j]?
    ∧ r.orders.length ≤ r'.orders.length

instance (i : Nat) : Frame (AgreesOff i) where
  refl _ _ _ _ := ⟨rfl, le_rfl⟩
  trans h h' j hj hlt :=
    have hl := h j hj hlt
    have hl' := h' j hj (lt_of_lt_of_le hlt hl.2)
    ⟨hl'.1.trans hl.1, hl.2.trans hl'.2⟩

variable {db : Db} {id tag : String} {bo : BrokerOrder} {o : Order} {i : Nat}

theorem agreesOff_setOrder (r : Rows) (f : Order → Order) :
    AgreesOff i r (r.setOrder i f) := by
  intro j hj _
  rw [Rows.setOrder_orders, List.getElem?_modify_ne _ _ (Ne.symm hj),
    List.length_modify]
  exact ⟨rfl, le_rfl⟩

/-- A change confined to one row keeps the others, if that row is not
bound elsewhere. -/
theorem AgreesOff.keepsOthers {r r' : Rows} (h : AgreesOff i r r')
    (hi : ∀ o other, r.orders[i]? = some o → o.brokerOrderId = some other →
      other = id) : KeepsOthers id r r' := by
  intro j o other hj hother hne
  have hji : j ≠ i := by
    rintro rfl
    exact hne (hi o other hj hother)
  obtain ⟨hlt, -⟩ := List.getElem?_eq_some_iff.1 hj
  rw [(h j hji hlt).1, hj]

private theorem keepsOthers_refl (r : Rows) : KeepsOthers id r r :=
  fun _ _ _ hj _ _ => hj

-- ============================================================= push path

/-- The push path keeps the others unless it is misdirected. -/
theorem process_keepsOthers (hid : bo.brokerOrderId = id)
    (htag : bo.tag = some tag) (hno : ¬ PushMisdirected db.rows id tag) :
    KeepsOthers id db.rows (OrderUpdateProcessor.process bo db).2.rows := by
  have happly : ∀ i o, db.rows.orders[i]? = some o →
      (∀ other, o.brokerOrderId = some other → other ≠ id →
        o.status.isTerminal = true) →
      Meets (applyBrokerOrderUpdate i o bo) db
        (fun _ db' => KeepsOthers id db.rows db'.rows) fun _ => True := by
    intro i o ho hown
    refine (applyBrokerOrderUpdate_meets ho).imp (fun _ db' hdb' => ?_)
      fun _ _ => trivial
    rw [hdb']
    by_cases hbound : ∃ other, o.brokerOrderId = some other ∧ other ≠ id
    · obtain ⟨other, hother, hne⟩ := hbound
      rw [setOrder_of_eq ho (Order.advance_terminal (hown other hother hne))]
      exact keepsOthers_refl _
    · refine (agreesOff_setOrder db.rows _).keepsOthers fun o' other ho' hother => ?_
      rw [ho] at ho'
      cases ho'
      by_contra hne
      exact hbound ⟨other, hother, hne⟩
  -- the tag lookup finds a row of another order only when misdirected
  have hbyTag : id = "" ∨ Unbound db.rows id → tag ≠ "" → ∀ x,
      select (fun o => decide (o.brokerTag = some tag)) db.rows.orders = [x] →
      Meets (applyBrokerOrderUpdate x.1 x.2 bo) db
        (fun _ db' => KeepsOthers id db.rows db'.rows) fun _ => True := by
    rintro hfall hne ⟨i, o⟩ hsel
    have ho : db.rows.orders[i]? = some o := by
      have hmem : (i, o) ∈ select (fun o => decide (o.brokerTag = some tag))
          db.rows.orders := by rw [hsel]; exact List.mem_singleton.2 rfl
      exact (mem_select.1 hmem).1
    refine happly i o ho fun other hother hother' => ?_
    by_contra hopen
    exact hno ⟨hne, hfall, o, ⟨⟨i, hsel⟩, other, hother, hother'⟩, by
      simpa using hopen⟩
  have hupdate : Meets (OrderUpdateProcessor.update bo) db
      (fun _ db' => KeepsOthers id db.rows db'.rows) fun _ => True := by
    unfold OrderUpdateProcessor.update OrderUpdateProcessor.locate
      OrderRepository.getByBrokerOrderId OrderRepository.getByBrokerTag
    simp only [hid, htag, meets_bind, meets_ite, meets_pure, meets_fetch,
      meets_scalarOneOrNone]
    have hkeep : KeepsOthers id db.rows db.rows := keepsOthers_refl _
    refine ⟨fun hempty => ⟨fun _ => hkeep, fun hne =>
      ⟨fun _ => hkeep, hbyTag (.inl hempty) hne, fun _ => trivial⟩⟩, fun _ =>
      ⟨fun hnone => ⟨fun _ => hkeep, fun hne =>
        ⟨fun _ => hkeep, hbyTag (.inr hnone) hne, fun _ => trivial⟩⟩, ?_,
        fun _ => trivial⟩⟩
    rintro ⟨i, o⟩ hsel
    have hmem : (i, o) ∈ select (fun o => decide (o.brokerOrderId = some id))
        db.rows.orders := by rw [hsel]; exact List.mem_singleton.2 rfl
    obtain ⟨ho, hown⟩ := mem_select.1 hmem
    refine happly i o ho fun other hother hne => ?_
    rw [of_decide_eq_true hown] at hother
    exact absurd (Option.some_inj.1 hother).symm hne
  unfold OrderUpdateProcessor.process
  unfold Meets at hupdate
  cases hrun : OrderUpdateProcessor.update bo db with
  | error e => exact keepsOthers_refl _
  | ok x => rw [hrun] at hupdate; exact hupdate

-- ======================================================== reconcile path

namespace ReconciliationEngine

variable {intentId : Nat} {intent : OrderIntent}

private theorem agreesOff_noOrder {g : Rows → Rows}
    (h : ∀ r, (g r).orders = r.orders) :
    Keeps (AgreesOff i) (flush g : Session Unit) :=
  keeps_flush fun r _ _ _ => ⟨by rw [h], by rw [h]⟩

private theorem agreesOff_writeOrder (f : Order → Order) :
    Keeps (AgreesOff i) (flush (·.setOrder i f) : Session Unit) :=
  keeps_flush fun r => agreesOff_setOrder r f

private theorem agreesOff_markStatus (status : IntentStatus) (id : Nat) :
    Keeps (AgreesOff i) (OrderIntentRepository.markStatus status id) :=
  agreesOff_noOrder fun _ => by rfl

theorem applyFill_keeps (order : Order) :
    Keeps (AgreesOff i) (applyFill intentId intent i order bo) := by
  refine keeps_bind (keeps_flush fun r => agreesOff_setOrder r _) fun _ =>
    keeps_bind ?_ fun _ => keeps_bind (agreesOff_markStatus .placed _) fun _ =>
      agreesOff_markStatus .confirmed _
  refine keeps_bind (keeps_fetch _) fun trade => ?_
  cases trade with
  | none => exact keeps_pure _
  | some _ => exact agreesOff_noOrder fun _ => by rfl

/-- The row `orderRow` settles on: bound to the snapshot's id, or the only
one under the intent's tag with no row having the id, or just created. -/
theorem orderRow_meets :
    Meets (orderRow intentId intent bo) db
      (fun row db' => AgreesOff row.1.1 db.rows db'.rows
        ∧ ((db.rows.orders[row.1.1]? = some row.1.2
            ∧ (row.1.2.brokerOrderId = some bo.brokerOrderId
              ∨ Unbound db.rows bo.brokerOrderId
                ∧ select (fun o => decide (o.brokerTag = some intent.brokerTag))
                  db.rows.orders = [row.1]))
          ∨ db.rows.orders[row.1.1]? = none))
      fun _ => True := by
  have hmem : ∀ (p : Order → Bool) (x : Nat × Order),
      select p db.rows.orders = [x] → x ∈ select p db.rows.orders :=
    fun p x hx => by rw [hx]; exact List.mem_singleton.2 rfl
  unfold orderRow OrderRepository.getByBrokerOrderId
    OrderRepository.getByBrokerTag OrderRepository.create
    OrderRepository.getByIdOrRaise OrderRepository.getById orRaise
  simp only [meets_bind, meets_fetch, meets_scalarOneOrNone, meets_pure,
    meets_flush, implies_true, and_true]
  refine ⟨fun hnone => ⟨fun _ _ => ?_, fun x hx => ?_⟩, fun x hx => ?_⟩
  · cases hget : (db.rows.orders ++ [_])[db.rows.orders.length]? with
    | none => trivial
    | some o =>
        refine ⟨fun j hj hlt => ?_, .inr (by simp)⟩
        rw [List.getElem?_append_left hlt, List.length_append]
        exact ⟨rfl, Nat.le_add_right _ _⟩
  · exact ⟨Frame.refl _, .inl ⟨(mem_select.1 (hmem _ x hx)).1, .inr ⟨hnone, hx⟩⟩⟩
  · obtain ⟨hget, hid⟩ := mem_select.1 (hmem _ x hx)
    exact ⟨Frame.refl _, .inl ⟨hget, .inl (of_decide_eq_true hid)⟩⟩

/-- After the row is settled on, only that row is written. -/
theorem resolveIntentAgainstOrder_meets :
    Meets (resolveIntentAgainstOrder intentId intent bo) db
      (fun _ db' => ∃ i, AgreesOff i db.rows db'.rows
        ∧ ∀ o, db.rows.orders[i]? = some o →
          o.brokerOrderId = some bo.brokerOrderId
            ∨ Unbound db.rows bo.brokerOrderId
              ∧ select (fun o => decide (o.brokerTag = some intent.brokerTag))
                db.rows.orders = [(i, o)])
      fun _ => True := by
  unfold resolveIntentAgainstOrder
  rw [meets_bind]
  refine orderRow_meets.imp ?_ fun _ => id
  rintro ⟨⟨i, o⟩, created⟩ db₁ ⟨hoff, hrow⟩
  have htail : ∀ {body : Session ReconciliationItem},
      Keeps (AgreesOff i) body → Meets body db₁
        (fun _ db' => ∃ i, AgreesOff i db.rows db'.rows
          ∧ ∀ o, db.rows.orders[i]? = some o →
            o.brokerOrderId = some bo.brokerOrderId
              ∨ Unbound db.rows bo.brokerOrderId
                ∧ select (fun o => decide (o.brokerTag = some intent.brokerTag))
                  db.rows.orders = [(i, o)])
        fun _ => True := by
    intro body hbody
    refine (hbody db₁).imp (fun _ db' h => ⟨i, Frame.trans hoff h, ?_⟩)
      fun _ => id
    intro o' ho'
    rcases hrow with ⟨hget, hown⟩ | hnone
    · rw [hget] at ho'
      cases ho'
      exact hown
    · rw [hnone] at ho'
      cases ho'
  have hbreak : ∀ breakType positionId orderId intentId,
      Keeps (AgreesOff i) (ReconciliationBreakRepository.create breakType
        positionId orderId intentId) :=
    fun _ _ _ _ => agreesOff_noOrder fun _ => by rfl
  refine htail (keeps_bind (keeps_ite (agreesOff_writeOrder _) (keeps_pure _))
    fun _ => ?_)
  have hfail : Keeps (AgreesOff i) (OrderIntentRepository.markFailed intentId) :=
    agreesOff_markStatus .failed _
  have hended : ∀ x y : ReconciliationItem, Keeps (AgreesOff i)
      (if 0 < bo.filledQuantity then do
          applyFill intentId intent i o bo
          ReconciliationBreakRepository.create .quantityMismatch none (some i)
            (some intentId)
          pure x
        else do
          OrderRepository.recordRejection i
            (resolveIntentAgainstOrder.rejectionText bo)
          OrderIntentRepository.markFailed intentId
          pure y : Session ReconciliationItem) :=
    fun x y => keeps_ite
      (keeps_bind (applyFill_keeps o) fun _ => keeps_bind (hbreak _ _ _ _)
        fun _ => keeps_pure _)
      (keeps_bind (agreesOff_writeOrder _) fun _ => keeps_bind hfail
        fun _ => keeps_pure _)
  cases hs : bo.status with
  | complete =>
      refine keeps_bind (applyFill_keeps o) fun _ => keeps_ite ?_ (keeps_pure _)
      exact keeps_bind (hbreak _ _ _ _) fun _ => keeps_pure _
  | rejected => exact hended _ _
  | cancelled => exact hended _ _
  | error => exact hended _ _
  | pending => exact keeps_ite (keeps_pure _) (keeps_pure _)
  | «open» => exact keeps_ite (keeps_pure _) (keeps_pure _)

end ReconciliationEngine

/-- The reconcile path keeps the others unless it is misdirected. -/
theorem resolve_keepsOthers (hid : bo.brokerOrderId = id) {intentId : Nat}
    {intent : OrderIntent} (hintent : db.rows.intents[intentId]? = some intent)
    (htag : intent.brokerTag = tag) (hno : ¬ ResolveMisdirected db.rows id tag) :
    Meets (ReconciliationEngine.resolveIntentAgainstOrder intentId intent bo) db
      (fun _ db' => KeepsOthers id db.rows db'.rows) fun _ => True := by
  refine ReconciliationEngine.resolveIntentAgainstOrder_meets.imp ?_ fun _ h => h
  rintro _ db' ⟨i, hoff, hrow⟩
  refine hoff.keepsOthers fun o other ho hother => ?_
  rcases hrow o ho with hown | ⟨hunbound, hsel⟩
  · rw [hown] at hother
    rw [← hid, Option.some_inj.1 hother]
  · by_contra hne
    exact hno ⟨hid ▸ hunbound, ⟨intent, List.mem_of_getElem? hintent, htag⟩, o,
      ⟨⟨i, htag ▸ hsel⟩, other, hother, hne⟩⟩

-- ======================================================= the wrong matches

/-- A rejection of the order `id`, under the tag `tag`. -/
def rejectionOf (id tag message : String) : BrokerOrder :=
  { brokerOrderId := id, tag := some tag, status := .rejected, exchange := .nfo,
    tradingsymbol := "", transactionType := .sell, product := .intraday,
    orderType := .market, quantity := 1, filledQuantity := 0,
    averagePrice := none, statusMessage := some message,
    quantity_pos := Nat.one_pos, filled_le := Nat.zero_le _ }

private theorem getElem?_of_select {p : Order → Bool}
    (hsel : select p db.rows.orders = [(i, o)]) :
    db.rows.orders[i]? = some o := by
  have hmem : (i, o) ∈ select p db.rows.orders := by
    rw [hsel]
    exact List.mem_singleton.2 rfl
  exact (mem_select.1 hmem).1

/-- Misdirected, the push path rejects someone else's order. -/
theorem process_misdirected (h : PushMisdirected db.rows bo.brokerOrderId tag)
    (htag : bo.tag = some tag) (hstatus : bo.status = .rejected)
    (hfilled : bo.filledQuantity = 0) :
    ¬ KeepsOthers bo.brokerOrderId db.rows
      (OrderUpdateProcessor.process bo db).2.rows := by
  obtain ⟨hne, hfall, o, ⟨⟨i, hsel⟩, other, hother, hid⟩, hopen⟩ := h
  have ho := getElem?_of_select hsel
  have happly : Meets (applyBrokerOrderUpdate i o bo) db
      (fun _ db' => db'.rows = db.rows.setOrder i (·.advance db.rows.money bo))
      fun _ => False :=
    (applyBrokerOrderUpdate_meets ho).imp (fun _ _ h => h) fun _ he =>
      he.2 ⟨by simp [hother], by rw [hfilled]; exact Nat.zero_le _⟩
  have hupdate : Meets (OrderUpdateProcessor.update bo) db
      (fun _ db' => db'.rows = db.rows.setOrder i (·.advance db.rows.money bo))
      fun _ => False := by
    unfold OrderUpdateProcessor.update OrderUpdateProcessor.locate
      OrderRepository.getByBrokerOrderId OrderRepository.getByBrokerTag
    simp only [htag, meets_bind, meets_ite, meets_pure, meets_fetch, hsel,
      hne, scalarOneOrNone, if_false]
    refine ⟨fun _ => happly, fun hid' => ?_⟩
    rcases hfall with hempty | hunbound
    · exact absurd hempty hid'
    · rw [Unbound] at hunbound
      simp only [hunbound, meets_pure, meets_bind, meets_fetch, hsel]
      exact happly
  obtain ⟨_, db', hrun, hrows⟩ := hupdate.exists_ok
  intro hkeeps
  have hsame := hkeeps i o other ho hother hid
  rw [OrderUpdateProcessor.process, hrun] at hsame
  simp only [hrows, Rows.setOrder_orders, List.getElem?_modify_eq, ho] at hsame
  have hrejected : (o.advance db.rows.money bo).status = .rejected := by
    simp [Order.advance, hopen, hstatus]
  have heq : o.advance db.rows.money bo = o := Option.some_inj.1 hsame
  rw [heq] at hrejected
  rw [hrejected] at hopen
  cases hopen

/-- Misdirected, the reconcile path overwrites someone else's order with
a rejection whose message it does not carry yet. -/
theorem resolve_misdirected {intentId : Nat} {intent : OrderIntent}
    {message : String} (hunbound : Unbound db.rows bo.brokerOrderId)
    (hsel : select (fun o => decide (o.brokerTag = some intent.brokerTag))
      db.rows.orders = [(i, o)])
    {other : String} (hother : o.brokerOrderId = some other)
    (hid : other ≠ bo.brokerOrderId) (hstatus : bo.status = .rejected)
    (hfilled : bo.filledQuantity = 0) (hmessage : bo.statusMessage = some message)
    (hne : message ≠ "") (hnew : o.errorMessage ≠ some message) :
    Meets (ReconciliationEngine.resolveIntentAgainstOrder intentId intent bo) db
      (fun _ db' => ¬ KeepsOthers bo.brokerOrderId db.rows db'.rows)
      fun _ => False := by
  have ho := getElem?_of_select hsel
  have hadm : db.rows.Admissible := db.admitted
  have hwrite : (db.rows.setOrder i fun o =>
      { o with status := .rejected, errorMessage := some message }).Admissible :=
    hadm.setOrder (fun x hx => hadm.checked.orders x (List.mem_of_getElem? hx))
      (fun _ _ => rfl) (fun _ _ => rfl)
      (fun x hx => congrArg (fun x : Order =>
          { x with status := .rejected, errorMessage := some message })
        (hadm.scaled.orders x (List.mem_of_getElem? hx)))
      (hadm.brokerOrderId_modify fun _ _ => rfl)
  have hfail : ((db.rows.setOrder i fun o =>
      { o with status := .rejected, errorMessage := some message }).setIntent
        intentId fun x => { x with status := .failed }).Admissible :=
    hwrite.setIntent (fun _ => rfl) (fun _ => rfl) (fun _ => rfl) fun _ => rfl
  rw [Unbound] at hunbound
  unfold ReconciliationEngine.resolveIntentAgainstOrder
    ReconciliationEngine.orderRow OrderRepository.getByBrokerOrderId
    OrderRepository.getByBrokerTag
  simp only [meets_bind, meets_fetch, hunbound, scalarOneOrNone, meets_pure, hsel]
  unfold ReconciliationEngine.acknowledge OrderRepository.recordRejection
    OrderIntentRepository.markFailed OrderIntentRepository.markStatus
  simp only [hother, reduceCtorEq, if_false, hstatus, hfilled, Nat.lt_irrefl,
    ReconciliationEngine.resolveIntentAgainstOrder.rejectionText, hmessage, hne,
    meets_bind, meets_pure, meets_flush]
  refine ⟨fun _ => ⟨fun _ hkeeps => ?_, fun hno => hno hfail⟩,
    fun hno => hno hwrite⟩
  have hsame := hkeeps i o other ho hother hid
  rw [Rows.setIntent_orders, Rows.setOrder_orders, List.getElem?_modify_eq, ho]
    at hsame
  exact hnew (congrArg Order.errorMessage (Option.some_inj.1 hsame)).symm

/-- A broker update touches its own order only, exactly when neither
writer's tag lookup can land on a row bound elsewhere. -/
theorem touchesOnlyOwn_iff (db : Db) (id tag : String) :
    TouchesOnlyOwn db id tag
      ↔ ¬ PushMisdirected db.rows id tag ∧ ¬ ResolveMisdirected db.rows id tag := by
  constructor
  · intro h
    refine ⟨fun hpush => ?_, ?_⟩
    · have hpush' : PushMisdirected db.rows
          (rejectionOf id tag "rejected").brokerOrderId tag := hpush
      exact process_misdirected hpush' rfl rfl rfl (h.process _ rfl rfl)
    · rintro ⟨hunbound, ⟨intent, hintent, htag⟩, o, ⟨i, hsel⟩, other, hother, hid⟩
      obtain ⟨intentId, hintentId⟩ := List.getElem?_of_mem hintent
      obtain ⟨message, hne, hnew⟩ :
          ∃ message, message ≠ "" ∧ o.errorMessage ≠ some message := by
        by_cases ha : o.errorMessage = some "a"
        · exact ⟨"b", by decide, by rw [ha]; decide⟩
        · exact ⟨"a", by decide, ha⟩
      have hunbound' : Unbound db.rows
          (rejectionOf id tag message).brokerOrderId := hunbound
      have hmeets := @resolve_misdirected db _ o i intentId intent message
        hunbound' (htag ▸ hsel) other hother hid rfl rfl rfl hne hnew
      obtain ⟨item, db', hrun, hchanged⟩ := hmeets.exists_ok
      exact hchanged (h.resolve _ rfl rfl intentId intent hintentId htag
        item db' hrun)
  · rintro ⟨hpush, hresolve⟩
    refine ⟨fun bo hid htag => process_keepsOthers hid htag hpush, ?_⟩
    intro bo hid _ intentId intent hintent hintentTag item db' hrun
    have hmeets := resolve_keepsOthers hid hintent hintentTag hresolve
    unfold Meets at hmeets
    rw [hrun] at hmeets
    exact hmeets

/-- An open row `A1` and a snapshot of `B2` under the row's tag: the push
marks `A1` rejected. -/
theorem touchesOnlyOwn_fails :
    ¬ ∀ (db : Db) (id tag : String), TouchesOnlyOwn db id tag := by
  intro hclaim
  have hmis : PushMisdirected Sample.openDb.rows
      (rejectionOf "B2" "E0-240704-CE" "rejected").brokerOrderId
      "E0-240704-CE" :=
    ⟨by decide, .inr (by unfold Unbound; decide), Sample.openRow,
      ⟨⟨0, by decide⟩, "A1", rfl, by decide⟩, rfl⟩
  exact process_misdirected hmis rfl rfl rfl
    ((hclaim Sample.openDb _ _).process _ rfl rfl)

end AlgoPlatform
