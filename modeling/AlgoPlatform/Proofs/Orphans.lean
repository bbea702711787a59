/-
A pass finds no orphan among the platform's own orders.

`_detect_orphans_and_duplicates` records an orphan for every tag of
today's orderbook that no intent carries. Whatever the writers did before
the process died, wherever they were cut off, an order of the platform's
own is one its intent asked for (`WrittenAhead`), and the intent is still
there when the next pass asks for it by tag. So every orphan a pass
reports is an order that was at the broker before the platform placed
any.
-/
import AlgoPlatform.Proofs.WriteAhead

open Basis Basis.Session

namespace AlgoPlatform

namespace ReconciliationEngine

variable {foreign : String → Prop}

/-- A tag an intent carries, or that is not the platform's. -/
private def Accounted (foreign : String → Prop) (tag : String) (r : Rows) :
    Prop :=
  foreign tag ∨ ∃ x ∈ r.intents, x.brokerTag = tag

private theorem Accounted.kept {tag : String} {r r' : Rows}
    (h : Accounted foreign tag r) (hkept : RowsKept r r') :
    Accounted foreign tag r' := by
  refine h.imp_right fun hintent => ?_
  obtain ⟨x, hx, htag⟩ := hintent
  obtain ⟨i, hi⟩ := List.getElem?_of_mem hx
  obtain ⟨y, hy, hendures⟩ := hkept.intents i x hi
  exact ⟨y, List.mem_of_getElem? hy, hendures.brokerTag.trans htag⟩

/-- The tags of the orderbook are those of its orders. -/
private theorem tag_of_mem_groups {orders : List BrokerOrder}
    {x : String × List BrokerOrder} (hx : x ∈ groupOrdersByTag orders) :
    ∃ bo ∈ orders, bo.tag = some x.1 := by
  unfold groupOrdersByTag at hx
  obtain ⟨tag, htag, rfl⟩ := List.mem_map.1 hx
  rw [List.mem_reverse, List.mem_dedup, List.mem_reverse, List.mem_filter] at htag
  exact List.mem_filterMap.1 htag.1

/-- The orders of today's orderbook are orders of the log. -/
private theorem mem_log_of_orderbook {b : Broker} {bo : BrokerOrder}
    (hbo : bo ∈ b.orderbook) : bo ∈ b.log := by
  obtain ⟨id, -, hid⟩ := List.mem_filterMap.1 hbo
  exact Broker.current_mem hid

/-- What the orphan stage reports is not the platform's. -/
private theorem orphanSession_foreign
    (ordersByTag : List (String × List BrokerOrder)) (db : Db)
    (htags : ∀ x ∈ ordersByTag, Accounted foreign x.1 db.rows) :
    Meets (orphanSession ordersByTag) db
      (fun items _ => ∀ item ∈ items, ∀ tag, item.subject = .brokerTag tag →
        foreign tag) fun _ => True := by
  induction ordersByTag generalizing db with
  | nil => exact fun _ hitem => nomatch hitem
  | cons x rest ih =>
      obtain ⟨tag, orders⟩ := x
      obtain ⟨htag, hrest⟩ := List.forall_mem_cons.1 htags
      unfold orphanSession OrderIntentRepository.getByBrokerTag
      rw [meets_bind, meets_bind, meets_fetch, meets_scalarOneOrNone]
      refine ⟨fun hnone => ?_, fun row _ => ih db hrest, fun _ => trivial⟩
      have hforeign : foreign tag := by
        rcases htag with h | ⟨x, hx, hxtag⟩
        · exact h
        · exact absurd hxtag (of_decide_eq_false (select_eq_nil.1 hnone x hx))
      unfold ReconciliationBreakRepository.create
      rw [meets_bind, meets_flush]
      refine ⟨fun hadm => ?_, fun _ => trivial⟩
      rw [meets_bind]
      refine (ih ⟨_, hadm⟩ hrest).imp (fun items _ hitems => ?_) fun _ h => h
      intro item hitem tag' hsubject
      rcases List.mem_cons.1 hitem with rfl | hitem
      · cases hsubject
        exact hforeign
      · exact hitems item hitem tag' hsubject

/-- Every tag of a group is accounted for. -/
private def AllAccounted (foreign : String → Prop)
    (ordersByTag : List (String × List BrokerOrder)) (w : World) : Prop :=
  ∀ x ∈ ordersByTag, Accounted foreign x.1 w.db.rows

/-- The orderbook a pass reads holds the platform's own orders and foreign
ones. -/
private theorem allAccounted_of_orderbook {w : World} (hw : Ahead foreign w) :
    AllAccounted foreign (groupOrdersByTag w.broker.orderbook) w := by
  intro x hx
  obtain ⟨bo, hbo, htag⟩ := tag_of_mem_groups hx
  rcases hw.own bo (mem_log_of_orderbook hbo) x.1 htag with h | ⟨c, hc, hctag⟩
  · exact .inl h
  · obtain ⟨intent, hintent, hasks⟩ := hw.written c hc
    exact .inr ⟨intent, hintent, hasks.tag.trans hctag⟩

/-- No item reports the platform's own tag. -/
private def NoOwnTag (foreign : String → Prop) (items : List ReconciliationItem) :
    Prop :=
  ∀ item ∈ items, ∀ tag, item.subject = .brokerTag tag → foreign tag

private theorem noOwnTag_of_subjects {items : List ReconciliationItem}
    {ids : List Nat} {about : Nat → Subject}
    (h : items.map (·.subject) = ids.map about)
    (habout : ∀ id tag, about id ≠ .brokerTag tag) : NoOwnTag foreign items := by
  intro item hitem tag hsubject
  have hmem := List.mem_map_of_mem (f := (·.subject)) hitem
  rw [h] at hmem
  obtain ⟨id, -, hid⟩ := List.mem_map.1 hmem
  exact absurd (hid.trans hsubject) (habout id tag)

variable {reconciler : Option PositionReconciler}

/-- The orderbook a pass reads. -/
private theorem beside_orderbook {seen : World} :
    (Program.tryBroker Program.getOrders).Beside (Ahead foreign)
      (OnRows RowsKept) seen fun r w => ∀ orders, r = .ok (.ok orders) →
        AllAccounted foreign (groupOrdersByTag orders) w := by
  refine Program.beside_tryBroker (P := fun r w => ∀ orders, r = .ok orders →
    AllAccounted foreign (groupOrdersByTag orders) w)
    (Program.beside_reads turnKeeps_ahead fun m w _ hw => ?_)
    (fun orders w h => ?_) ?_ ?_
  · intro orders horders
    cases hread : m.read with
    | none =>
        rw [hread] at horders
        cases horders
        exact allAccounted_of_orderbook hw
    | some e =>
        rw [hread] at horders
        cases horders
  · intro orders' horders
    cases horders
    exact h orders rfl
  · intro e w _ orders horders
    cases horders
  · intro e w _ orders horders
    cases horders

/-- The orphan stage, with every tag accounted for. -/
private theorem beside_orphanSession
    {ordersByTag : List (String × List BrokerOrder)} {seen : World}
    (htags : AllAccounted foreign ordersByTag seen) :
    (Program.unitOfWork fun _ => orphanSession ordersByTag).Beside
      (Ahead foreign) (OnRows RowsKept) seen
      fun r _ => ∀ items, r = .ok items → NoOwnTag foreign items := by
  refine Program.beside_unitOfWork turnKeeps_ahead
    (fun f w _ _ items hitems => by cases hitems) fun _ w hseen hw => ?_
  refine ((keeps_orphanSession allowsFills_rowsStand.breaks ordersByTag w.db).and
    (orphanSession_foreign ordersByTag w.db fun x hx =>
      (htags x hx).kept hseen)).imp (fun items db h => ?_) fun e _ items hitems => ?_
  · have hmoved : Waits RowsStand w { w with db } := Waits.commit h.1
    refine ⟨⟨hw.waits hmoved, hmoved.rows.toRowsKept⟩, fun items' hitems => ?_⟩
    cases hitems
    exact h.2
  · cases hitems

variable {reconciler : Option PositionReconciler}

/-- A pass among the writers: what it reports under a tag is foreign. -/
private theorem reconcile_beside
    (hseam : ∀ s ∈ reconciler, s.Finishes ∧ s.SparesLegs) (seen : World) :
    (reconcile reconciler).Beside (Ahead foreign) (OnRows RowsKept) seen
      fun r _ => ∀ items, r = .ok items → NoOwnTag foreign items := by
  have hno : ∀ {s : World} (e : Exc), ∀ items : List ReconciliationItem,
      (.error e : Except Exc _) = .ok items → NoOwnTag foreign items := by
    intro s e items h
    cases h
  refine Prog.beside_bind beside_orderbook (fun orders w horders => ?_)
    fun e w _ => hno (s := w) e
  cases orders with
  | error e =>
      refine Prog.beside_pure fun items hitems => ?_
      cases hitems
      intro item hitem tag hsubject
      rw [List.mem_singleton.1 hitem] at hsubject
      cases hsubject
  | ok orders =>
      have htags := horders orders rfl
      -- other threads leave every tag accounted for
      have hstable : ∀ s t, OnRows RowsKept s t →
          AllAccounted foreign (groupOrdersByTag orders) s →
          AllAccounted foreign (groupOrdersByTag orders) t :=
        fun s t hmoved h x hx => (h x hx).kept hmoved
      refine Prog.beside_bind ((beside_of_stands (Program.along_tryBroker
        (Program.along_reads _))).carry htags hstable)
        (fun positions w h => ?_) fun e w _ => hno (s := w) e
      refine Prog.beside_bind ((beside_of_stands (Program.along_unitOfWork
        fun _ => keeps_fetch _)).carry h.2 hstable)
        (fun ids w h => ?_) fun e w _ => hno (s := w) e
      refine Prog.beside_bind (((beside_of_stands (along_each fun id _ =>
        Program.along_unitOfWork fun _ => keeps_rowsStand_intentSession id _)).ensures
          (ensures_each .intent (fun id => ensures_yields fun _ =>
            yields_intentSession id _) ids)).carry h.2 hstable)
        (fun intentItems w h => ?_) fun e w _ => hno (s := w) e
      have hintents : NoOwnTag foreign intentItems :=
        noOwnTag_of_subjects (h.1.2 intentItems rfl) fun id tag hid => by cases hid
      refine Prog.beside_bind (beside_orphanSession h.2)
        (fun orphanItems w h => ?_) fun e w _ => hno (s := w) e
      have horphans := h orphanItems rfl
      refine Prog.beside_bind (beside_of_stands (Program.along_unitOfWork
        fun _ => keeps_bind (keeps_fetch _) fun _ => keeps_fetch _))
        (fun ids w _ => ?_) fun e w _ => hno (s := w) e
      refine Prog.beside_bind ((beside_of_stands (along_each fun id _ =>
        Program.along_unitOfWork fun scan =>
          keeps_rowsStand_positionSession hseam id _ scan)).ensures
          (ensures_each .position (fun id => ensures_yields fun scan =>
            yields_positionSession reconciler id _ scan) ids))
        (fun positionItems w h => ?_) fun e w _ => hno (s := w) e
      have hpositions : NoOwnTag foreign positionItems :=
        noOwnTag_of_subjects (h.2 positionItems rfl) fun id tag hid => by cases hid
      refine Prog.beside_pure fun items hitems => ?_
      cases hitems
      intro item hitem tag hsubject
      rcases List.mem_append.1 hitem with hitem | hitem
      · rcases List.mem_append.1 hitem with hitem | hitem
        · exact hintents item hitem tag hsubject
        · exact horphans item hitem tag hsubject
      · exact hpositions item hitem tag hsubject

end ReconciliationEngine

open ReconciliationEngine

/-- Whatever the writers did, and wherever each of them was cut off, the
orphans the next pass reports are orders that were at the broker before
any of them ran. -/
theorem orphans_are_foreign {reconciler : Option PositionReconciler}
    (hseam : ∀ s ∈ reconciler, s.Finishes ∧ s.SparesLegs) {w : World}
    (hbooked : Booked w.db.rows) (hw : WrittenAhead w)
    (es : List (Pool.Event Writer Move)) (ms : List Move)
    {report : List ReconciliationItem}
    (hrun : ((reconcile reconciler).run ms
        (Pool.run (Writer.program reconciler) (Pool.idle w) es).state).1
      = .returned report)
    {item : ReconciliationItem} (hitem : item ∈ report) {tag : String}
    (hsubject : item.subject = .brokerTag tag) :
    ∃ bo ∈ w.broker.log, bo.tag = some tag := by
  have hahead := ahead_run (fun tag => ∃ bo ∈ w.broker.log, bo.tag = some tag)
    hseam ⟨hbooked, hw, fun bo hbo tag htag => .inl ⟨bo, hbo, htag⟩⟩ es
  have hsafe := ((reconcile_beside hseam _).safe hahead
    (C := fun _ => True)).run
    fun (m : Move) (_ : m ∈ ms) => trivial
  rw [hrun] at hsafe
  exact hsafe report rfl item hitem tag hsubject

namespace SampleDay

/-- What the pass of the next start reports, when the process died with an
entry's first leg at the broker and an order placed by hand beside it. -/
def reportAfterCrash : List ReconciliationItem :=
  [{ subject := .intent 0, outcome := .orderRowCreated,
     detail := "created missing order row; broker order still PENDING" },
   { subject := .intent 1, outcome := .intentFailedNotAtBroker,
     detail := "no broker order carries tag E0-240704-PE; marked FAILED" },
   orphanFound,
   { subject := .position 0, outcome := .entryAbortedNoFills,
     detail := "no leg filled; aborted to CLOSED" }]

theorem byHand_is_foreign :
    ∃ bo ∈ byHand.broker.log, bo.tag = some "by-hand" := by
  have hrun : ((reconcile (some seam)).run
      (still :: { positions := [] } :: List.replicate 6 still)
      (Pool.run (Writer.program (some seam)) (Pool.idle byHand)
        placedAndCut).state).1 = .returned reportAfterCrash := by
    decide +kernel
  have hitem : orphanFound ∈ reportAfterCrash := by decide
  exact orphans_are_foreign seam_lawful (booked_of_empty rfl rfl)
    (fun _ hc => absurd hc List.not_mem_nil) placedAndCut _ hrun hitem rfl

end SampleDay

end AlgoPlatform
