/-
An acknowledged order and the row that follows it.

`Tracked id tag i w`: order row `i` is bound to the broker's order `id`
under the tag, that order is the broker's only one there, and once the
row is terminal it agrees with the order's last snapshot. The push
stream keeps it that way, whatever it delivers and however often; and
once a poll has seen the order terminal, the reconciling commit leaves
the row terminal too, unless it lost its race and the row stayed open.
-/
import AlgoPlatform.Model.Bookkeeping
import AlgoPlatform.Proofs.Environment
import AlgoPlatform.Proofs.RowUpdate

open Basis Basis.Session

namespace AlgoPlatform

-- ============================================================== one order

/-- An order of the broker's that has its tag to itself. -/
structure Broker.Sole (b : Broker) (id tag : String) : Prop where
  nonempty : id ≠ ""
  only : ∀ bo ∈ b.log, bo.tag = some tag → bo.brokerOrderId = id
  settles : b.Settles id

/-- A terminal row agrees with the snapshot: COMPLETE exactly when it
is. -/
structure Order.Agrees (o : Order) (bo : BrokerOrder) : Prop where
  terminal : bo.status.isTerminal = true
  complete : o.status = .complete ↔ bo.status = .complete

/-- The row is the order's: its newest snapshot is `cur`. -/
structure Order.Tracks (o : Order) (id tag : String) (cur : BrokerOrder) :
    Prop where
  brokerOrderId : o.brokerOrderId = some id
  brokerTag : o.brokerTag = some tag
  quantity : o.quantity = cur.quantity
  agrees : o.status.isTerminal = true → o.Agrees cur

/-- Row `i` is the row of the broker's order `id`. -/
structure Tracked (id tag : String) (i : Nat) (w : World) : Prop where
  sole : w.broker.Sole id tag
  row : ∃ o cur, w.db.rows.orders[i]? = some o
    ∧ w.broker.current id = some cur ∧ o.Tracks id tag cur

variable {id tag : String} {i : Nat} {w : World} {o : Order}
  {bo cur : BrokerOrder} {db : Db} {money : ℚ → ℚ}

/-- Nothing else comes to be under the tag. -/
theorem Broker.Sole.follows {b b' : Broker} (h : b.Sole id tag)
    (hb : b.Follows b') : b'.Sole id tag where
  nonempty := h.nonempty
  only := by
    intro bo hbo htag
    rcases hb.born bo hbo with hold | ⟨cur, hcur, hbecomes⟩
    · exact h.only bo hold htag
    · rw [hbecomes.brokerOrderId]
      exact h.only cur (Broker.current_mem hcur) (hbecomes.tag ▸ htag)
  settles := hb.settles id h.settles

/-- A first order under the tag has it to itself. -/
theorem Broker.IsFresh.sole {b : Broker} {request : PlaceOrderRequest}
    (hid : b.IsFresh id) (hunborn : ∀ bo ∈ b.log, bo.tag ≠ some tag)
    (raised : Option BrokerError) :
    (b.accept request id raised).Sole id tag where
  nonempty := hid.1
  only := by
    intro bo hbo htag
    rcases List.mem_cons.1 hbo with rfl | hold
    · rfl
    · exact absurd htag (hunborn bo hold)
  settles := by
    intro bo hbo hboid hterm
    rcases List.mem_cons.1 hbo with rfl | hold
    · cases hterm
    · exact absurd hboid (hid.2.2 bo hold)

-- ================================================================ the row

@[simp] theorem Order.learn_brokerTag : (o.learn bo).brokerTag = o.brokerTag := by
  unfold Order.learn; split_ifs <;> rfl

@[simp] theorem Order.advance_brokerTag :
    (o.advance money bo).brokerTag = o.brokerTag := by
  unfold Order.advance
  cases bo.status <;> dsimp only <;> split_ifs <;> simp

/-- A row that has seen nothing terminal yet agrees with the first
terminal snapshot it sees, and goes on agreeing. -/
theorem Order.advance_agrees (ho : o.status.isTerminal = true → o.Agrees cur)
    (hbo : bo.status.isTerminal = true → bo = cur)
    (hterm : (o.advance money bo).status.isTerminal = true) :
    (o.advance money bo).Agrees cur := by
  by_cases hopen : o.status.isTerminal = true
  · rw [Order.advance_terminal hopen]
    exact ho hopen
  · unfold Order.advance at hterm ⊢
    rw [if_neg hopen] at hterm ⊢
    cases hs : bo.status with
    | complete =>
        obtain rfl := hbo (by rw [hs]; rfl)
        exact ⟨by rw [hs]; rfl, by simp [hs]⟩
    | rejected =>
        obtain rfl := hbo (by rw [hs]; rfl)
        exact ⟨by rw [hs]; rfl, by simp [hs]⟩
    | error =>
        obtain rfl := hbo (by rw [hs]; rfl)
        exact ⟨by rw [hs]; rfl, by simp [hs]⟩
    | cancelled =>
        obtain rfl := hbo (by rw [hs]; rfl)
        exact ⟨by rw [hs]; rfl, by simp [hs]⟩
    | pending =>
        -- a working snapshot leaves the row open
        rw [hs] at hterm
        dsimp only at hterm
        split_ifs at hterm
        · cases hterm
        · rw [Order.learn_status] at hterm
          exact absurd hterm hopen
    | «open» =>
        rw [hs] at hterm
        dsimp only at hterm
        split_ifs at hterm
        · cases hterm
        · rw [Order.learn_status] at hterm
          exact absurd hterm hopen

/-- A terminal snapshot leaves any row terminal. -/
theorem Order.advance_of_terminal (h : bo.status.isTerminal = true) :
    (o.advance money bo).status.isTerminal = true := by
  unfold Order.advance
  by_cases hopen : o.status.isTerminal = true
  · rw [if_pos hopen]
    exact hopen
  · rw [if_neg hopen]
    cases hs : bo.status with
    | pending => rw [hs] at h; cases h
    | «open» => rw [hs] at h; cases h
    | _ => rfl

-- ========================================================== the push path

/-- The row an update is applied to has its id or its tag. -/
private def Located (bo : BrokerOrder) (db : Db)
    (row : Option (Nat × Order)) (db' : Db) : Prop :=
  db' = db ∧ ∀ j o, row = some (j, o) → db.rows.orders[j]? = some o
    ∧ (o.brokerOrderId = some bo.brokerOrderId
      ∨ ∃ t, bo.tag = some t ∧ o.brokerTag = some t)

private theorem located_none (bo : BrokerOrder) (db : Db) :
    Located bo db none db := by
  refine ⟨rfl, fun j o h => ?_⟩
  cases h

private theorem located_only {bo : BrokerOrder} {db : Db} {p : Order → Bool}
    {x : Nat × Order} (hsel : select p db.rows.orders = [x])
    (hp : ∀ o, p o = true → o.brokerOrderId = some bo.brokerOrderId
      ∨ ∃ t, bo.tag = some t ∧ o.brokerTag = some t) :
    Located bo db (some x) db := by
  have hmem : x ∈ select p db.rows.orders := by rw [hsel]; simp
  obtain ⟨ho, hx⟩ := mem_select.1 hmem
  refine ⟨rfl, fun j o h => ?_⟩
  cases h
  exact ⟨ho, hp _ hx⟩

private theorem locateByTag_meets (bo : BrokerOrder) (db : Db) :
    Meets (match bo.tag with
      | some tag => if tag = "" then pure none
          else OrderRepository.getByBrokerTag tag
      | none => (pure none : Session (Option (Nat × Order)))) db
      (Located bo db) fun _ => True := by
  cases htag : bo.tag with
  | none => exact located_none bo db
  | some tag =>
      simp only [OrderRepository.getByBrokerTag, meets_ite, meets_pure,
        meets_bind, meets_fetch, meets_scalarOneOrNone]
      exact ⟨fun _ => located_none bo db, fun _ => ⟨fun _ => located_none bo db,
        fun x hx => located_only hx fun o ho =>
          .inr ⟨tag, htag, of_decide_eq_true ho⟩, fun _ => trivial⟩⟩

private theorem locate_meets (bo : BrokerOrder) (db : Db) :
    Meets (OrderUpdateProcessor.locate bo) db (Located bo db)
      fun _ => True := by
  unfold OrderUpdateProcessor.locate
  by_cases hempty : bo.brokerOrderId = ""
  · rw [if_pos hempty]
    exact locateByTag_meets bo db
  · rw [if_neg hempty]
    simp only [OrderRepository.getByBrokerOrderId, meets_bind, meets_fetch,
      meets_scalarOneOrNone]
    refine ⟨fun _ => locateByTag_meets bo db, fun x hx => ?_,
      fun _ => trivial⟩
    rw [meets_pure]
    exact located_only hx fun o ho => .inl (of_decide_eq_true ho)

/-- A push either leaves the row as it was or advances it, and it
advances it only for the row's own order. -/
theorem process_row (ho : db.rows.orders[i]? = some o)
    (hid : o.brokerOrderId = some id) (htag : o.brokerTag = some tag)
    (hown : bo.tag = some tag → bo.brokerOrderId = id) :
    (OrderUpdateProcessor.process bo db).2.rows.orders[i]? = some o
      ∨ bo.brokerOrderId = id
        ∧ (OrderUpdateProcessor.process bo db).2.rows.orders[i]?
          = some (o.advance db.rows.money bo) := by
  have hupdate : Meets (OrderUpdateProcessor.update bo) db
      (fun _ db' => db'.rows.orders[i]? = some o
        ∨ bo.brokerOrderId = id
          ∧ db'.rows.orders[i]? = some (o.advance db.rows.money bo))
      fun _ => True := by
    unfold OrderUpdateProcessor.update
    rw [meets_bind]
    refine (locate_meets bo db).imp (fun row db' hrow => ?_) fun _ _ => trivial
    obtain ⟨rfl, hrow⟩ := hrow
    cases row with
    | none => exact .inl ho
    | some x =>
        obtain ⟨j, o'⟩ := x
        obtain ⟨hj, hwhy⟩ := hrow j o' rfl
        refine (applyBrokerOrderUpdate_meets hj).imp (fun _ db'' hdb => ?_)
          fun _ _ => trivial
        rw [hdb, Rows.setOrder_orders, List.getElem?_modify]
        by_cases hji : j = i
        · subst hji
          obtain rfl := Option.some_inj.1 (hj.symm.trans ho)
          right
          refine ⟨?_, by simp [hj]⟩
          rcases hwhy with hbyId | ⟨t, hbt, hot⟩
          · exact (Option.some_inj.1 (hid.symm.trans hbyId)).symm
          · rw [htag] at hot
            exact hown (hbt.trans hot.symm)
        · left
          simp [hji, ho]
  unfold OrderUpdateProcessor.process
  unfold Meets at hupdate
  cases hrun : OrderUpdateProcessor.update bo db with
  | error e => exact .inl ho
  | ok x => rw [hrun] at hupdate; exact hupdate

/-- A push changes nothing, or advances the one row that has the
snapshot's id or its tag. -/
theorem process_cases (bo : BrokerOrder) (db : Db) :
    (OrderUpdateProcessor.process bo db).2 = db
      ∨ ∃ j o, db.rows.orders[j]? = some o
        ∧ (o.brokerOrderId = some bo.brokerOrderId
          ∨ ∃ t, bo.tag = some t ∧ o.brokerTag = some t)
        ∧ (OrderUpdateProcessor.process bo db).2.rows
          = db.rows.setOrder j (·.advance db.rows.money bo) := by
  have hupdate : Meets (OrderUpdateProcessor.update bo) db
      (fun _ db' => db' = db ∨ ∃ j o, db.rows.orders[j]? = some o
        ∧ (o.brokerOrderId = some bo.brokerOrderId
          ∨ ∃ t, bo.tag = some t ∧ o.brokerTag = some t)
        ∧ db'.rows = db.rows.setOrder j (·.advance db.rows.money bo)) fun _ => True := by
    unfold OrderUpdateProcessor.update
    rw [meets_bind]
    refine (locate_meets bo db).imp (fun row db' hrow => ?_) fun _ _ => trivial
    obtain ⟨rfl, hrow⟩ := hrow
    cases row with
    | none => exact .inl rfl
    | some x =>
        obtain ⟨j, o⟩ := x
        obtain ⟨hj, hwhy⟩ := hrow j o rfl
        exact (applyBrokerOrderUpdate_meets hj).imp
          (fun _ db'' hdb => .inr ⟨j, o, hj, hwhy, hdb⟩) fun _ _ => trivial
  unfold OrderUpdateProcessor.process
  unfold Meets at hupdate
  cases hrun : OrderUpdateProcessor.update bo db with
  | error e => exact .inl rfl
  | ok x =>
      rw [hrun] at hupdate
      exact hupdate

-- =========================================================== the tracking

/-- The row keeps agreeing when the broker moves on. -/
theorem Tracked.follows {b : Broker} (h : Tracked id tag i w)
    (hb : w.broker.Follows b) : Tracked id tag i { w with broker := b } where
  sole := h.sole.follows hb
  row := by
    obtain ⟨o, cur, ho, hcur, htracks⟩ := h.row
    obtain ⟨new, hnew, hbecomes⟩ := hb.current id cur hcur
    refine ⟨o, new, ho, hnew, ?_⟩
    refine { htracks with quantity := ?_, agrees := fun hterm => ?_ }
    · exact htracks.quantity.trans hbecomes.quantity.symm
    · have hagrees := htracks.agrees hterm
      rw [hbecomes.terminal hagrees.terminal]
      exact hagrees

/-- Commits that leave the order rows alone. -/
theorem Tracked.commit (h : Tracked id tag i w)
    (hdb : db.rows.orders = w.db.rows.orders) :
    Tracked id tag i { w with db } where
  sole := h.sole
  row := by
    obtain ⟨o, cur, ho, hrest⟩ := h.row
    exact ⟨o, cur, by rw [hdb]; exact ho, hrest⟩

/-- A row that advances still is the order's row. -/
private theorem Order.Tracks.advance (h : o.Tracks id tag cur)
    (hbo : bo.status.isTerminal = true → bo = cur) :
    (o.advance money bo).Tracks id tag cur where
  brokerOrderId := Order.advance_brokerOrderId h.brokerOrderId
  brokerTag := by rw [Order.advance_brokerTag]; exact h.brokerTag
  quantity := by rw [Order.advance_quantity]; exact h.quantity
  agrees := Order.advance_agrees h.agrees hbo

theorem Tracked.happens (h : Tracked id tag i w) (e : Event) :
    Tracked id tag i (w.happens e) := by
  cases e with
  | works bo => exact h.follows (w.broker.follows_works bo)
  | pushes n =>
      obtain hnone | ⟨bo, hmem, hpushed⟩ := w.happens_pushes n
      · rw [hnone]
        exact h
      · rw [hpushed]
        obtain ⟨o, cur, ho, hcur, htracks⟩ := h.row
        refine ⟨h.sole, ?_⟩
        rcases process_row ho htracks.brokerOrderId htracks.brokerTag
          (h.sole.only bo hmem) with hsame | ⟨hown, hadv⟩
        · exact ⟨o, cur, hsame, hcur, htracks⟩
        · refine ⟨o.advance w.db.rows.money bo, cur, hadv, hcur,
            htracks.advance ?_⟩
          intro hterm
          have hlast := h.sole.settles bo hmem hown hterm
          exact Option.some_inj.1 (hlast.symm.trans hcur)

/-- The environment's turn. -/
theorem Tracked.interfere (h : Tracked id tag i w) (m : Move) :
    Tracked id tag i (w.interfere m) := by
  unfold World.interfere
  induction m.events generalizing w with
  | nil => exact h
  | cons e es ih => exact ih (h.happens e)

/-- The broker has moved on by itself. -/
theorem World.interfere_follows (w : World) (m : Move) :
    w.broker.Follows (w.interfere m).broker := by
  unfold World.interfere
  induction m.events generalizing w with
  | nil => exact Broker.Follows.refl _
  | cons e es ih =>
      refine Broker.Follows.trans ?_ (ih (w.happens e))
      cases e with
      | works bo => exact w.broker.follows_works bo
      | pushes n =>
          obtain h | ⟨bo, -, h⟩ := w.happens_pushes n <;> rw [h]
          · exact Broker.Follows.refl _
          · exact Broker.Follows.refl _

-- ================================================================ the poll

/-- The environment asks the broker nothing. -/
@[simp] theorem World.interfere_reads (w : World) (m : Move) :
    (w.interfere m).broker.reads = w.broker.reads := by
  unfold World.interfere
  induction m.events generalizing w with
  | nil => rfl
  | cons e es ih =>
      rw [List.foldl_cons, ih]
      cases e with
      | works bo =>
          show (w.broker.works bo).reads = _
          unfold Broker.works
          cases w.broker.current bo.brokerOrderId with
          | none => rfl
          | some cur => dsimp only; split_ifs <;> rfl
      | pushes n =>
          obtain h | ⟨bo, -, h⟩ := w.happens_pushes n <;> rw [h]

/-- Nor does it race a commit nobody makes. -/
@[simp] theorem World.interfere_deferred (w : World) (m : Move) :
    (w.interfere m).deferred = w.deferred := by
  unfold World.interfere
  induction m.events generalizing w with
  | nil => rfl
  | cons e es ih =>
      rw [List.foldl_cons, ih]
      cases e with
      | works bo => rfl
      | pushes n =>
          obtain h | ⟨bo, -, h⟩ := w.happens_pushes n <;> rw [h]

/-- A read of the order that did not see it terminal. -/
def ReadCall.SawWorking (id : String) (read : ReadCall) : Prop :=
  read.brokerOrderId = id
    ∧ ∀ bo, read.answer = some bo → bo.status.isTerminal = false

/-- What a poll of `id` from `w` leaves: reads that saw the order
working, and at most one, the last, that saw it terminal. -/
inductive Polled (id : String) (attempts : Nat) (w : World) :
    Except Exc (Option BrokerOrder) → World → Prop
  | exhausted {w' : World} (seen : List ReadCall)
      (hseen : ∀ read ∈ seen, read.SawWorking id)
      (hlength : seen.length = attempts)
      (hreads : w'.broker.reads = w.broker.reads ++ seen) :
      Polled id attempts w (.ok none) w'
  | terminal {w' : World} {bo : BrokerOrder} (seen : List ReadCall)
      (hseen : ∀ read ∈ seen, read.SawWorking id)
      (hterm : bo.status.isTerminal = true)
      (hcurrent : w'.broker.current id = some bo)
      (hreads : w'.broker.reads = w.broker.reads ++ seen ++ [⟨id, some bo⟩]) :
      Polled id attempts w (.ok (some bo)) w'

private theorem Polled.again {attempts : Nat} {w v w' : World}
    {r : Except Exc (Option BrokerOrder)} {read : ReadCall}
    (hread : read.SawWorking id)
    (hv : v.broker.reads = w.broker.reads ++ [read])
    (h : Polled id attempts v r w') : Polled id (attempts + 1) w r w' := by
  have hall : ∀ {seen : List ReadCall}, (∀ x ∈ seen, x.SawWorking id) →
      ∀ x ∈ read :: seen, x.SawWorking id := by
    intro seen hseen x hx
    rcases List.mem_cons.1 hx with rfl | hx
    · exact hread
    · exact hseen x hx
  cases h with
  | exhausted seen hseen hlength hreads =>
      refine .exhausted (read :: seen) (hall hseen) (by simp [hlength]) ?_
      rw [hreads, hv]
      simp
  | terminal seen hseen hterm hcurrent hreads =>
      refine .terminal (read :: seen) (hall hseen) hterm hcurrent ?_
      rw [hreads, hv]
      simp

/-- A poll never raises. -/
theorem Program.pollUntilTerminal_safe (id : String) (attempts : Nat) :
    ∀ w, (pollUntilTerminal id attempts).Safe (fun _ => True)
      (fun _ => True) w (Polled id attempts w) := by
  induction attempts with
  | zero =>
      intro w
      exact .exhausted [] (by simp) rfl (by simp)
  | succ attempts ih =>
      intro w
      unfold pollUntilTerminal
      rw [Prog.safe_bind]
      refine safe_tryGetOrder trivial (fun m e _ => ?_) fun m bo _ hbo => ?_
      · rw [Prog.andThen_ok]
        have hread : ReadCall.SawWorking id ⟨id, none⟩ :=
          ⟨rfl, fun bo h => nomatch h⟩
        refine (ih _).mono fun r w' h => h.again hread ?_
        exact congrArg (· ++ _) (World.interfere_reads w m)
      · rw [Prog.andThen_ok]
        dsimp only
        by_cases hterm : bo.status.isTerminal = true
        · rw [if_pos hterm, Prog.safe_pure]
          refine .terminal [] (by simp) hterm hbo ?_
          simp
        · rw [if_neg hterm]
          have hread : ReadCall.SawWorking id ⟨id, some bo⟩ := by
            refine ⟨rfl, fun bo' hbo' => ?_⟩
            cases hbo'
            simpa using hterm
          refine (ih _).mono fun r w' h => h.again hread ?_
          exact congrArg (· ++ _) (World.interfere_reads w m)

/-- What the environment's turn and a read leave alone, a poll does. -/
theorem Program.stays_pollUntilTerminal {P : World → Prop}
    (hturn : ∀ {w : World} (m : Move), P w → P (w.interfere m))
    (hread : ∀ {w : World} (read : ReadCall), P w → P { w with
      broker := { w.broker with reads := w.broker.reads ++ [read] } })
    (id : String) (attempts : Nat) :
    Prog.Along (Prog.Stays P) (pollUntilTerminal id attempts) := by
  induction attempts with
  | zero => exact Prog.along_pure _
  | succ attempts ih =>
      have hget : Prog.Along (Prog.Stays P) (tryBroker (getOrder id)) := by
        refine along_tryBroker (Prog.along_atomic fun m w h => ?_)
        dsimp only
        unfold Broker.getOrder
        cases (w.interfere m).broker.lookup id m.read with
        | ok bo => exact hread _ (hturn m h)
        | error e => exact hread _ (hturn m h)
      refine Prog.along_bind hget fun r => ?_
      cases r with
      | error e => exact ih
      | ok bo => exact Prog.along_ite (Prog.along_pure _) ih

-- ======================================================= the first commit

/-- The row an acknowledgement is recorded in. -/
theorem recordAck_meets {tradeId intentId : Nat} {purpose : OrderPurpose}
    {side : TransactionType} {quantity : Nat} (db : Db) :
    Meets (Bookkeeping.recordAck tradeId intentId purpose side quantity
        (.ok tag) id) db
      (fun i db' => ∃ o, db'.rows.orders[i]? = some o
        ∧ o.brokerOrderId = some id ∧ o.brokerTag = some tag
        ∧ o.quantity = quantity ∧ o.status = .open)
      fun _ => True := by
  unfold Bookkeeping.recordAck OrderRepository.create
    OrderRepository.markAcknowledged OrderIntentRepository.getByIdOrRaise
    OrderIntentRepository.getById OrderIntentRepository.markPlaced
    OrderIntentRepository.markStatus
  simp only [meets_bind, meets_lift, meets_fetch, meets_flush, meets_pure,
    meets_orRaise]
  refine ⟨fun t ht => ⟨fun _ => ⟨fun _ => ⟨fun x _ => ⟨fun _ => ?_, ?_⟩, ?_⟩,
    ?_⟩, ?_⟩, ?_⟩
  · cases ht
    simp only [Rows.setIntent_orders, Rows.setOrder_orders,
      List.getElem?_modify_eq, List.getElem?_concat_length]
    exact ⟨_, rfl, rfl, rfl, rfl, rfl⟩
  all_goals exact fun _ => by simp

-- ================================================= the reconciling commit

theorem Tracked.read (h : Tracked id tag i w) (read : ReadCall) :
    Tracked id tag i { w with
      broker := { w.broker with reads := w.broker.reads ++ [read] } } :=
  h.follows { Broker.Follows.refl w.broker with
    reads := List.prefix_append _ _ }

/-- The row is there and terminal. -/
def RowClosed (i : Nat) (w : World) : Prop :=
  ∃ o, w.db.rows.orders[i]? = some o ∧ o.status.isTerminal = true

/-- A closed row stays closed. -/
theorem Tracked.closed_interfere (h : Tracked id tag i w) (hc : RowClosed i w)
    (m : Move) : RowClosed i (w.interfere m) := by
  unfold World.interfere
  induction m.events generalizing w with
  | nil => exact hc
  | cons e es ih =>
      refine ih (h.happens e) ?_
      cases e with
      | works bo => exact hc
      | pushes n =>
          obtain hnone | ⟨bo, hmem, hpushed⟩ := w.happens_pushes n
          · rw [hnone]
            exact hc
          · rw [hpushed]
            obtain ⟨o, ho, hterm⟩ := hc
            obtain ⟨o', cur, ho', -, htracks⟩ := h.row
            obtain rfl := Option.some_inj.1 (ho.symm.trans ho')
            rcases process_row ho htracks.brokerOrderId htracks.brokerTag
              (h.sole.only bo hmem) with hsame | ⟨-, hadv⟩
            · exact ⟨o, hsame, hterm⟩
            · rw [Order.advance_terminal hterm] at hadv
              exact ⟨o, hadv, hterm⟩

/-- What reconciling the row with the order's terminal snapshot leaves:
the row terminal, unless the write lost its race. -/
structure Reconciled (id tag : String) (i : Nat) (w w' : World) : Prop where
  tracked : Tracked id tag i w'
  follows : w.broker.Follows w'.broker
  reads : w'.broker.reads = w.broker.reads
  closed : RowClosed i w' ∨ w'.deferred = w.deferred ++ [id]

/-- An order seen terminal stays as it was seen. -/
theorem Broker.current_of_terminal {b b' : Broker} (hb : b.Follows b')
    (hbo : b.current id = some bo) (hterm : bo.status.isTerminal = true) :
    b'.current id = some bo := by
  obtain ⟨bo', hbo', hbecomes⟩ := hb.current id bo hbo
  rw [hbo', hbecomes.terminal hterm]

/-- A bound row the lookup would not write is terminal. -/
private theorem terminal_of_openRow (ho : db.rows.orders[i]? = some o)
    (hid : o.brokerOrderId = some id)
    (hnone : Program.openRow id db = none) : o.status.isTerminal = true := by
  unfold Program.openRow at hnone
  have hall := List.find?_eq_none.1 hnone o (List.mem_of_getElem? ho)
  simpa [hid] using hall

/-- The reconciling session leaves the row terminal. -/
private theorem Tracked.reconcileTerminal_meets (h : Tracked id tag i w)
    (hbo : w.broker.current id = some bo)
    (hterm : bo.status.isTerminal = true) :
    Meets (reconcileTerminal id bo) w.db
      (fun _ db' => Reconciled id tag i w { w with db := db' })
      fun _ => False := by
  obtain ⟨o, cur, ho, hcur, htracks⟩ := h.row
  obtain rfl := Option.some_inj.1 (hbo.symm.trans hcur)
  have hid : bo.brokerOrderId = id := Broker.current_id hbo
  have hbound : o.brokerOrderId = some bo.brokerOrderId := by
    rw [hid]
    exact htracks.brokerOrderId
  have hfit : bo.filledQuantity ≤ o.quantity := by
    rw [htracks.quantity]
    exact bo.filled_le
  have hmeets := reconcileTerminal_bound ho hbound hfit
  rw [hid] at hmeets
  refine hmeets.imp (fun _ db' hdb => ?_) fun _ h => h
  have hrow : db'.rows.orders[i]?
      = some (o.advance w.db.rows.money bo) := by
    rw [hdb, Rows.setOrder_orders, List.getElem?_modify_eq, ho]
    rfl
  exact {
    tracked := ⟨h.sole, _, bo, hrow, hbo, htracks.advance fun _ => rfl⟩
    follows := Broker.Follows.refl _
    reads := rfl
    closed := .inl ⟨_, hrow, Order.advance_of_terminal hterm⟩ }

/-- Reconciling raises only where its commit fails. -/
theorem Tracked.reconcileOrderTerminal_safe {C : Move → Prop}
    (h : Tracked id tag i w) (hbo : w.broker.current id = some bo)
    (hterm : bo.status.isTerminal = true) :
    (Program.reconcileOrderTerminal id bo).Safe C (Tracked id tag i) w
      fun r w' => (∃ e m, r = .error e ∧ C m ∧ m.fault ≠ none)
        ∨ r = .ok () ∧ Reconciled id tag i w w' := by
  refine (Prog.safe_atomic _ _).2 ⟨h, fun m hm => ?_⟩
  have hturn := h.interfere m
  have hseen : (w.interfere m).broker.current id = some bo :=
    Broker.current_of_terminal (w.interfere_follows m) hbo hterm
  have hmeets := hturn.reconcileTerminal_meets hseen hterm
  unfold Meets at hmeets
  -- the session itself, when the commit goes through
  have hcommit : ∀ w', Reconciled id tag i (w.interfere m) w' →
      Reconciled id tag i w w' := by
    intro w' h'
    refine ⟨h'.tracked, (w.interfere_follows m).trans h'.follows,
      h'.reads.trans (w.interfere_reads m), ?_⟩
    have hclosed := h'.closed
    rw [World.interfere_deferred] at hclosed
    exact hclosed
  dsimp only
  cases hf : m.fault with
  | none =>
      dsimp only
      rw [if_neg (by simp)]
      cases hrun : reconcileTerminal id bo (w.interfere m).db with
      | error e => rw [hrun] at hmeets; exact hmeets.elim
      | ok r => rw [hrun] at hmeets; exact .inr ⟨rfl, hcommit _ hmeets⟩
  | some fault =>
      cases fault with
      | operational => exact .inl ⟨_, m, rfl, hm, by simp [hf]⟩
      | conflict =>
          dsimp only
          by_cases hraced : some DbFault.conflict = some .conflict
              ∧ (Program.openRow id w.db).isSome
              ∧ Program.openRow id w.db
                ≠ Program.openRow id (w.interfere m).db
          · rw [if_pos hraced]
            right
            refine ⟨rfl, ?_⟩
            cases hopen : Program.openRow id (w.interfere m).db with
            | some row =>
                rw [if_pos (by rfl)]
                refine ⟨⟨hturn.sole, hturn.row⟩, w.interfere_follows m,
                  w.interfere_reads m, .inr ?_⟩
                rw [← w.interfere_deferred m]
            | none =>
                rw [if_neg (by simp)]
                obtain ⟨o, cur, ho, hcur, htracks⟩ := hturn.row
                refine ⟨hturn, w.interfere_follows m, w.interfere_reads m,
                  .inl ⟨o, ho, ?_⟩⟩
                exact terminal_of_openRow ho htracks.brokerOrderId hopen
          · rw [if_neg hraced]
            cases hrun : reconcileTerminal id bo (w.interfere m).db with
            | error e => rw [hrun] at hmeets; exact hmeets.elim
            | ok r => rw [hrun] at hmeets; exact .inr ⟨rfl, hcommit _ hmeets⟩

end AlgoPlatform
