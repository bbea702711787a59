/-
What a pass over an OPEN position says about its exposure.

# The law

An OPEN leg is a short of its quantity, so an OPEN position agrees with
the broker when the broker's net quantity in each leg's symbol is exactly
minus the leg's. `_reconcile_open` does not compare quantities: it asks
only whether the broker has some non-zero row in the symbol. So a
mismatch is recorded exactly when one of the legs has none.

# The argument

The pass decides each position once. Before and after its turn nothing
touches the position or its legs and no break is taken back (`Spares`),
so what the pass leaves is what the one session of that position made of
the rows the position stage began with.
-/
import AlgoPlatform.Model.Runs
import AlgoPlatform.Proofs.Reconcile

open Basis Basis.Session

namespace AlgoPlatform

-- ============================================================ the law

/-- The broker's net quantity in a symbol, over all its rows. -/
def netQuantity (book : List BrokerPosition) (symbol : String) : Int :=
  ((book.filter (·.tradingsymbol = symbol)).map (·.quantity)).sum

/-- The broker has no row with a quantity in the symbol. -/
def NoLiveRow (book : List BrokerPosition) (symbol : String) : Prop :=
  ∀ row ∈ book, row.tradingsymbol = symbol → row.quantity = 0

/-- A trade of the position that is OPEN. -/
def OpenLeg (r : Rows) (id : Nat) (t : Trade) : Prop :=
  t ∈ r.trades ∧ t.positionId = id ∧ t.status = .open

/-- Some OPEN leg is not short exactly its quantity at the broker. -/
def Mismatched (book : List BrokerPosition) (r : Rows) (id : Nat) : Prop :=
  ∃ t, OpenLeg r id t ∧ netQuantity book t.tradingSymbol ≠ -(t.quantity : Int)

instance (book : List BrokerPosition) (r : Rows) (id : Nat) :
    Decidable (Mismatched book r id) :=
  decidable_of_iff
    (∃ t ∈ r.trades, (t.positionId = id ∧ t.status = .open)
      ∧ netQuantity book t.tradingSymbol ≠ -(t.quantity : Int))
    ⟨fun ⟨t, ht, hleg, hnet⟩ => ⟨t, ⟨ht, hleg⟩, hnet⟩,
      fun ⟨t, ⟨ht, hleg⟩, hnet⟩ => ⟨t, ht, hleg, hnet⟩⟩

/-- Some OPEN leg's symbol has no live row at the broker. -/
def SomeLegFlat (book : List BrokerPosition) (r : Rows) (id : Nat) : Prop :=
  ∃ t, OpenLeg r id t ∧ NoLiveRow book t.tradingSymbol

/-- A break for the position was recorded between the two states, and the
report does not call it consistent. -/
structure Recorded (id : Nat) (r r' : Rows)
    (items : List ReconciliationItem) : Prop where
  recorded : ∃ b ∈ r'.breaks.drop r.breaks.length, b.positionId = some id
  reported : ∀ item ∈ items, item.subject = .position id →
    item.outcome ≠ .consistentNoAction

-- ============================================================ the frames

/-- The position and its legs are as they were, and no break is gone. -/
structure Spares (id : Nat) (r r' : Rows) : Prop where
  position : r'.positions[id]? = r.positions[id]?
  legs : ∀ (i : Nat) (t : Trade), t.positionId = id →
    (r'.trades[i]? = some t ↔ r.trades[i]? = some t)
  breaks : r.breaks <+: r'.breaks

instance (id : Nat) : BlindToPushes (Spares id) where
  refl := fun _ => ⟨rfl, fun _ _ _ => Iff.rfl, List.prefix_refl _⟩
  trans := fun h h' => ⟨h'.position.trans h.position,
    fun i t ht => (h'.legs i t ht).trans (h.legs i t ht),
    h.breaks.trans h'.breaks⟩
  orders := fun _ _ => ⟨rfl, fun _ _ _ => Iff.rfl, List.prefix_refl _⟩

/-- The seam's contract: finishing a position leaves every other one
alone. -/
def PositionReconciler.Local (s : PositionReconciler) : Prop :=
  ∀ id j, j ≠ id → Keeps (Spares id) (s.finalizeEntry j)
    ∧ Keeps (Spares id) (s.finalizeExit j)

/-- Deciding one position spares the others. -/
theorem allowsVerdict_spares {id j : Nat} (hne : j ≠ id) :
    AllowsVerdict (Spares id) j where
  breaks := fun _ _ => ⟨rfl, fun _ _ _ => Iff.rfl, List.prefix_append _ _⟩
  position := by
    intro r f
    refine ⟨?_, fun _ _ _ => Iff.rfl, List.prefix_refl _⟩
    rw [Rows.setPosition_positions, List.getElem?_modify_ne _ _ hne]
  transition := fun _ _ => ⟨rfl, fun _ _ _ => Iff.rfl, List.prefix_refl _⟩
  inst := fun _ _ _ => ⟨rfl, fun _ _ _ => Iff.rfl, List.prefix_refl _⟩

variable {id : Nat} {r r' : Rows} {book : List BrokerPosition}

theorem Spares.openLeg (h : Spares id r r') (t : Trade) :
    OpenLeg r' id t ↔ OpenLeg r id t := by
  unfold OpenLeg
  rw [List.mem_iff_getElem?, List.mem_iff_getElem?]
  constructor
  · intro ⟨⟨i, hi⟩, ht, hs⟩
    exact ⟨⟨i, (h.legs i t ht).1 hi⟩, ht, hs⟩
  · intro ⟨⟨i, hi⟩, ht, hs⟩
    exact ⟨⟨i, (h.legs i t ht).2 hi⟩, ht, hs⟩

theorem Spares.someLegFlat (h : Spares id r r') :
    SomeLegFlat book r' id ↔ SomeLegFlat book r id := by
  unfold SomeLegFlat
  simp only [h.openLeg]

-- ======================================================== one position

/-- No break is taken back. -/
def BreaksGrow (r r' : Rows) : Prop := r.breaks <+: r'.breaks

instance : BlindToPushes BreaksGrow where
  refl := fun _ => List.prefix_refl _
  trans := List.IsPrefix.trans
  orders := fun _ _ => List.prefix_refl _

theorem allowsVerdict_breaksGrow (id : Nat) : AllowsVerdict BreaksGrow id where
  breaks := fun _ _ => List.prefix_append _ _
  position := fun _ _ => List.prefix_refl _
  transition := fun _ _ => List.prefix_refl _
  inst := fun _ _ _ => List.prefix_refl _

/-- A break appended after others is among the new ones. -/
private theorem mem_drop_append {α : Type} {l l' : List α} (h : l <+: l')
    (x : α) : x ∈ (l' ++ [x]).drop l.length := by
  rw [List.drop_append_of_le_length h.length_le]
  exact List.mem_append_right _ (List.mem_singleton.2 rfl)

/-- New breaks stay new. -/
private theorem mem_drop_of_prefix {α : Type} {l l' : List α} {n : Nat} {x : α}
    (hx : x ∈ l.drop n) (h : l <+: l') : x ∈ l'.drop n := by
  obtain ⟨l'', rfl⟩ := h
  rw [List.drop_append]
  exact List.mem_append_left _ hx

open ReconciliationEngine

/-- A position put into ERROR has its break. -/
theorem errorPosition_meets (db : Db) (position : Position)
    (breakType : ReconciliationBreakType) (name reason : String) :
    Meets (errorPosition id position breakType name reason) db
      (fun item db' => item.outcome = .positionErrored
        ∧ ∃ b ∈ db'.rows.breaks.drop db.rows.breaks.length,
            b.positionId = some id) fun _ => True := by
  unfold errorPosition ReconciliationBreakRepository.create
  rw [meets_bind]
  refine (keeps_errorByRecovery (allowsVerdict_breaksGrow id) _ _ db).imp
    (fun _ db₁ hgrow => ?_) fun _ h => h
  rw [meets_bind, meets_flush]
  refine ⟨fun _ => ?_, fun _ => trivial⟩
  rw [meets_pure]
  exact ⟨rfl, _, mem_drop_append hgrow _, rfl⟩

/-- A symbol is missing from the live ones when it has no live row. -/
private theorem not_mem_live {symbol : String} :
    symbol ∉ (book.filter (·.quantity ≠ 0)).map (·.tradingsymbol)
      ↔ NoLiveRow book symbol := by
  unfold NoLiveRow
  rw [List.mem_map]
  constructor
  · intro h row hrow hsymbol
    by_contra hlive
    exact h ⟨row, List.mem_filter.2 ⟨hrow, by simpa using hlive⟩, hsymbol⟩
  · intro h ⟨row, hrow, hsymbol⟩
    obtain ⟨hrow, hlive⟩ := List.mem_filter.1 hrow
    exact absurd (h row hrow hsymbol) (by simpa using hlive)

/-- The legs `_reconcile_open` finds missing are those without a live
row. -/
private theorem missing_flat {scan : List Nat} :
    (((withStatus .open ((arrange scan ((select (·.positionId = id)
        r.trades).map Prod.fst)).filterMap
        fun id => r.trades[id]?.map fun t => (id, t))).map
          (·.2.tradingSymbol)).filter
        (· ∉ (book.filter (·.quantity ≠ 0)).map (·.tradingsymbol))).dedup ≠ []
      ↔ SomeLegFlat book r id := by
  rw [missing_ne_nil]
  unfold SomeLegFlat OpenLeg
  constructor
  · intro ⟨t, ht, hof, hopen, hmissing⟩
    exact ⟨t, ⟨ht, hof, hopen⟩, not_mem_live.1 hmissing⟩
  · intro ⟨t, ⟨ht, hof, hopen⟩, hflat⟩
    exact ⟨t, ht, hof, hopen, not_mem_live.2 hflat⟩

/-- What the pass made of a position by a state with these rows. -/
def Decided (book : List BrokerPosition) (id : Nat) (r r' : Rows)
    (outcome : ReconciliationOutcome) : Prop :=
  (SomeLegFlat book r id → outcome = .positionErrored
      ∧ ∃ b ∈ r'.breaks.drop r.breaks.length, b.positionId = some id)
    ∧ (¬ SomeLegFlat book r id → outcome = .consistentNoAction)

/-- The session of an OPEN position. -/
theorem openSession_meets {reconciler : Option PositionReconciler} {db : Db}
    {p : Position} (hp : db.rows.positions[id]? = some p)
    (hopen : p.state = .open) (scan : List Nat) :
    Meets (positionSession reconciler id (liveSymbols (.ok book)) scan) db
      (fun item db' => Decided book id db.rows db'.rows item.outcome)
      fun _ => True := by
  unfold positionSession PositionRepository.getById
    PositionRepository.listTradesForPosition
  rw [meets_bind, meets_fetch, hp]
  dsimp only
  rw [if_neg (by rw [hopen]; decide), meets_bind, meets_fetch, hopen]
  dsimp only
  unfold reconcileOpen liveSymbols
  dsimp only
  rw [meets_ite, missing_flat]
  constructor
  · intro hflat
    refine (errorPosition_meets db p _ _ _).imp (fun item db' h => ?_)
      fun _ h => h
    exact ⟨fun _ => h, fun hno => absurd hflat hno⟩
  · intro hno
    rw [meets_pure]
    exact ⟨fun hflat => absurd hflat hno, fun _ => rfl⟩

-- ============================================================ the stage

variable {reconciler : Option PositionReconciler}

theorem Decided.later {r'' : Rows} {outcome : ReconciliationOutcome}
    (h : Decided book id r r' outcome) (hgrow : r'.breaks <+: r''.breaks) :
    Decided book id r r'' outcome := by
  refine ⟨fun hflat => ?_, h.2⟩
  obtain ⟨houtcome, b, hb, hof⟩ := h.1 hflat
  exact ⟨houtcome, b, mem_drop_of_prefix hb hgrow, hof⟩

theorem Decided.earlier {r₀ : Rows} {outcome : ReconciliationOutcome}
    (h : Decided book id r r' outcome) (hspares : Spares id r₀ r) :
    Decided book id r₀ r' outcome := by
  unfold Decided
  rw [← hspares.someLegFlat]
  refine ⟨fun hflat => ?_, h.2⟩
  obtain ⟨houtcome, b, hb, hof⟩ := h.1 hflat
  exact ⟨houtcome, b,
    (List.drop_subset_drop_left _ hspares.breaks.length_le) hb, hof⟩

/-- The turn of another position spares this one. -/
theorem along_reconcileOnePosition {j : Nat} (hne : j ≠ id)
    (hlocal : ∀ s ∈ reconciler, s.Local) (live : Option (List String)) :
    Prog.Along (OnRows (Spares id))
      (reconcileOnePosition reconciler live j) :=
  along_onRows (Program.along_unitOfWork fun scan =>
    keeps_positionSession (allowsVerdict_spares hne)
      (fun s hs => hlocal s hs id j hne) live scan)

/-- The turns of other positions spare this one. -/
theorem along_each_others {ids : List Nat} (hid : id ∉ ids)
    (hlocal : ∀ s ∈ reconciler, s.Local) (live : Option (List String)) :
    Prog.Along (OnRows (Spares id))
      (each (reconcileOnePosition reconciler live) ids) := by
  refine along_each fun j hj => along_reconcileOnePosition ?_ hlocal live
  intro hji
  exact hid (hji ▸ hj)

/-- The verdict on a position, and what the report says of it. -/
def Verdict (book : List BrokerPosition) (id : Nat) (r r' : Rows)
    (items : List ReconciliationItem) : Prop :=
  ∃ item ∈ items, item.subject = .position id
    ∧ Decided book id r r' item.outcome
    ∧ ∀ item' ∈ items, item'.subject = .position id → item' = item

/-- The position's own turn. -/
private theorem ownTurn_safe {p : Position} {w : World}
    (hp : w.db.rows.positions[id]? = some p) (hopen : p.state = .open) :
    (reconcileOnePosition reconciler (liveSymbols (.ok book)) id).Safe
      (fun _ => True) (fun _ => True) w fun res w' => ∀ item, res = .ok item →
        item.subject = .position id
          ∧ Decided book id w.db.rows w'.db.rows item.outcome := by
  refine Program.safe_unitOfWork trivial (fun _ _ _ _ => nofun)
    fun m _ _ => ?_
  have hturn : Spares id w.db.rows (w.interfere m).db.rows :=
    (waits_interfere (R := Spares id) w m).rows
  have hp' : (w.interfere m).db.rows.positions[id]? = some p :=
    hturn.position.trans hp
  refine ((openSession_meets hp' hopen m.scan).and
    (yields_positionSession reconciler id _ m.scan _)).imp
    (fun item db' h => ?_) fun _ _ => nofun
  intro item' hitem
  cases hitem
  exact ⟨h.2, h.1.earlier hturn⟩

/-- A pass over positions among which this one is gives its verdict. -/
theorem each_safe {p : Position} {ids : List Nat} (hnd : ids.Nodup)
    (hid : id ∈ ids) (hlocal : ∀ s ∈ reconciler, s.Local) {w : World}
    (hp : w.db.rows.positions[id]? = some p) (hopen : p.state = .open) :
    (each (reconcileOnePosition reconciler (liveSymbols (.ok book))) ids).Safe
      (fun _ => True) (fun _ => True) w fun res w' => ∀ items, res = .ok items →
        Verdict book id w.db.rows w'.db.rows items := by
  induction ids generalizing w with
  | nil => cases hid
  | cons j ids ih =>
      obtain ⟨hj, hnd⟩ := List.nodup_cons.1 hnd
      unfold each
      rw [Prog.safe_bind]
      by_cases hji : j = id
      · -- its own turn; the turns after it spare it
        subst hji
        refine (ownTurn_safe hp hopen).mono fun res w₁ hown => ?_
        cases res with
        | error e => exact fun _ => nofun
        | ok item =>
            obtain ⟨hsubject, hdecided⟩ := hown item rfl
            rw [Prog.andThen_ok, Prog.safe_bind]
            refine (((along_each_others hj hlocal _).safe w₁).and
              ((ensures_each .position (fun i => ensures_yields fun scan =>
                yields_positionSession reconciler i _ scan) ids).safe w₁)).imp
              (fun _ _ => trivial) fun res w₂ h => ?_
            cases res with
            | error e => exact fun _ => nofun
            | ok items =>
                intro out hout
                cases hout
                have hsubjects := h.2 items rfl
                refine ⟨item, List.mem_cons_self .., hsubject,
                  hdecided.later h.1.breaks, fun item' hitem' hof => ?_⟩
                rcases List.mem_cons.1 hitem' with rfl | hitem'
                · rfl
                · have hmem := List.mem_map_of_mem (f := (·.subject)) hitem'
                  rw [hsubjects, hof] at hmem
                  obtain ⟨i, hi, heq⟩ := List.mem_map.1 hmem
                  cases heq
                  exact absurd hi hj
      · -- another's turn, and then this one is still to come
        have hid' : id ∈ ids := by
          rcases List.mem_cons.1 hid with rfl | h
          · exact absurd rfl hji
          · exact h
        refine (((along_reconcileOnePosition hji hlocal _).safe w).and
          (Prog.Ensures.safe (ensures_yields fun scan =>
            yields_positionSession reconciler j _ scan) w)).imp
          (fun _ _ => trivial) fun res w₁ h => ?_
        cases res with
        | error e => exact fun _ => nofun
        | ok item =>
            have hsubject := h.2 item rfl
            rw [Prog.andThen_ok, Prog.safe_bind]
            refine (ih hnd hid' (h.1.position.trans hp)).mono
              fun res w₂ hrest => ?_
            cases res with
            | error e => exact fun _ => nofun
            | ok items =>
                intro out hout
                cases hout
                obtain ⟨own, hown, hof, hdecided, honly⟩ := hrest items rfl
                refine ⟨own, List.mem_cons_of_mem _ hown, hof,
                  hdecided.earlier h.1, fun item' hitem' hof' => ?_⟩
                rcases List.mem_cons.1 hitem' with rfl | hitem'
                · rw [hsubject] at hof'
                  cases hof'
                  exact absurd rfl hji
                · exact honly item' hitem' hof'

/-- The position stage gives every OPEN position it finds its verdict. -/
theorem positionStage_safe {p : Position}
    (hlocal : ∀ s ∈ reconciler, s.Local) {w : World}
    (hp : w.db.rows.positions[id]? = some p) (hopen : p.state = .open) :
    (positionStage reconciler (liveSymbols (.ok book))).Safe
      (fun _ => True) (fun _ => True) w fun res w' => ∀ items, res = .ok items →
        Verdict book id w.db.rows w'.db.rows items := by
  unfold positionStage
  rw [Prog.safe_bind]
  refine Program.safe_unitOfWork trivial (fun _ _ _ _ _ => nofun)
    fun m _ _ => ?_
  have hturn : Spares id w.db.rows (w.interfere m).db.rows :=
    (waits_interfere (R := Spares id) w m).rows
  have hp' : (w.interfere m).db.rows.positions[id]? = some p :=
    hturn.position.trans hp
  unfold unfinishedPositions PositionRepository.listNonTerminal
  rw [meets_bind, meets_fetch, meets_fetch, Prog.andThen_ok]
  have hmem := (@mem_unfinished _ m.scan id).2 ⟨p, hp', .inr (.inl hopen)⟩
  have hkeys := select_keys_nodup (fun p => p.state = .entryPending
      ∨ p.state = .open ∨ p.state = .exitPending ∨ p.state = .error)
    (w.interfere m).db.rows.positions
  have hnd := (@arrange_nodup m.scan _ hkeys).filter fun id =>
    ((w.interfere m).db.rows.positions[id]?).any (·.state ≠ .error)
  refine (each_safe hnd hmem hlocal hp' hopen).mono
    fun res w₁ h items hitems => ?_
  obtain ⟨item, hitem, hof, hdecided, honly⟩ := h items hitems
  exact ⟨item, hitem, hof, hdecided.earlier hturn, honly⟩

-- ================================================= before the positions

/-- The position's state is as it was, or ERROR with a break recorded on
the way. -/
def Survives (id : Nat) (r r' : Rows) : Prop :=
  r.breaks <+: r'.breaks ∧ ∀ p, r.positions[id]? = some p →
    ∃ p', r'.positions[id]? = some p' ∧ (p'.state = p.state
      ∨ p'.state = .error ∧ r.breaks.length < r'.breaks.length)

theorem Survives.of_eq (h : r'.positions = r.positions)
    (hgrow : r.breaks <+: r'.breaks) : Survives id r r' :=
  ⟨hgrow, fun p hp => ⟨p, by rw [h]; exact hp, .inl rfl⟩⟩

instance (id : Nat) : BlindToPushes (Survives id) where
  refl := fun _ => Survives.of_eq rfl (List.prefix_refl _)
  trans := by
    intro r s t hrs hst
    refine ⟨hrs.1.trans hst.1, fun p hp => ?_⟩
    obtain ⟨p', hp', h'⟩ := hrs.2 p hp
    obtain ⟨p'', hp'', h''⟩ := hst.2 p' hp'
    have hle := hrs.1.length_le
    have hle' := hst.1.length_le
    refine ⟨p'', hp'', ?_⟩
    rcases h' with h' | ⟨h', hlt⟩ <;> rcases h'' with h'' | ⟨h'', hlt'⟩
    · exact .inl (h''.trans h')
    · exact .inr ⟨h'', by omega⟩
    · exact .inr ⟨h''.trans h', by omega⟩
    · exact .inr ⟨h'', by omega⟩
  orders := fun _ _ => Survives.of_eq rfl (List.prefix_refl _)

theorem allowsFills_survives (id : Nat) : AllowsFills (Survives id) where
  breaks := fun _ _ => Survives.of_eq rfl (List.prefix_append _ _)
  status := fun _ _ _ => Survives.of_eq rfl (List.prefix_refl _)
  fill := fun _ _ _ _ => Survives.of_eq rfl (List.prefix_refl _)

/-- The position's state is as it was, or ERROR. -/
def Falls (id : Nat) (r r' : Rows) : Prop :=
  r'.breaks = r.breaks ∧ ∀ p, r.positions[id]? = some p →
    ∃ p', r'.positions[id]? = some p'
      ∧ (p'.state = p.state ∨ p'.state = .error)

instance (id : Nat) : Session.Frame (Falls id) where
  refl := fun _ => ⟨rfl, fun p hp => ⟨p, hp, .inl rfl⟩⟩
  trans := by
    intro r s t hrs hst
    refine ⟨hst.1.trans hrs.1, fun p hp => ?_⟩
    obtain ⟨p', hp', h'⟩ := hrs.2 p hp
    obtain ⟨p'', hp'', h''⟩ := hst.2 p' hp'
    refine ⟨p'', hp'', ?_⟩
    rcases h'' with h'' | h''
    · rw [h'']
      exact h'
    · exact .inr h''

/-- An update of a position row that keeps its state or puts it into
ERROR. -/
private theorem falls_modify {j : Nat} {f : Position → Position}
    (hf : ∀ p, (f p).state = p.state ∨ (f p).state = .error)
    (hbreaks : r'.breaks = r.breaks)
    (hrows : r'.positions = r.positions.modify j f) : Falls id r r' := by
  refine ⟨hbreaks, fun p hp => ?_⟩
  rw [hrows, List.getElem?_modify, hp]
  by_cases hj : j = id
  · exact ⟨f p, by simp [hj], hf p⟩
  · exact ⟨p, by simp [hj], .inl rfl⟩

private theorem keeps_falls_errorByRecovery (j strategyInstanceId : Nat)
    (reason : String) :
    Keeps (Falls id) (errorByRecovery j strategyInstanceId reason) := by
  refine keeps_bind (keeps_flush fun r => ?_) fun _ => ?_
  · refine falls_modify ?_ rfl rfl
    intro p
    exact .inl rfl
  refine keeps_bind (keeps_bind (keeps_fetch _) fun row => ?_) fun _ => ?_
  · cases row with
    | none => exact keeps_throw _
    | some position =>
        refine keeps_bind (keeps_pure _) fun _ => keeps_flush fun r => ?_
        refine falls_modify ?_ rfl rfl
        intro p
        exact .inr rfl
  · refine keeps_bind (keeps_fetch _) fun row => ?_
    cases row with
    | none => exact keeps_pure _
    | some inst =>
        refine keeps_ite (keeps_flush fun r => ?_) (keeps_pure _)
        exact ⟨rfl, fun p hp => ⟨p, hp, .inl rfl⟩⟩

private theorem keeps_falls_errorPositionOfIntent (intent : OrderIntent)
    (reason : String) :
    Keeps (Falls id) (errorPositionOfIntent intent reason) := by
  refine keeps_bind (keeps_fetch _) fun trade => ?_
  cases trade with
  | none => exact keeps_pure _
  | some trade =>
      refine keeps_bind (keeps_fetch _) fun position => ?_
      cases position with
      | none => exact keeps_pure _
      | some position =>
          exact keeps_ite (keeps_pure _) (keeps_falls_errorByRecovery _ _ _)

/-- Two orders under one tag put the position into ERROR, after the
break. -/
private theorem keeps_duplicate (intentId : Nat) (intent : OrderIntent)
    (reason : String) (item : ReconciliationItem) :
    Keeps (Survives id) (do
      ReconciliationBreakRepository.create .quantityMismatch none none
        (some intentId)
      errorPositionOfIntent intent reason
      pure item : Session ReconciliationItem) := by
  intro db
  unfold ReconciliationBreakRepository.create
  rw [meets_bind, meets_flush]
  refine ⟨fun hadmits => ?_, fun _ => trivial⟩
  rw [meets_bind]
  have herrors : Keeps (Falls id) (errorPositionOfIntent intent reason) :=
    keeps_falls_errorPositionOfIntent intent reason
  refine (herrors _).imp (fun _ db' hfalls => ?_) fun _ h => h
  rw [meets_pure]
  obtain ⟨hbreaks, hposition⟩ := hfalls
  refine ⟨by rw [hbreaks]; exact List.prefix_append _ _, fun p hp => ?_⟩
  obtain ⟨p', hp', hstate⟩ := hposition p hp
  refine ⟨p', hp', hstate.imp (fun h => h) fun herror => ⟨herror, ?_⟩⟩
  rw [hbreaks, List.length_append]
  exact Nat.lt_succ_self _

theorem keeps_survives_intentSession (intentId : Nat)
    (ordersByTag : List (String × List BrokerOrder)) :
    Keeps (Survives id) (intentSession intentId ordersByTag) := by
  refine keeps_bind (keeps_fetch _) fun row => ?_
  cases row with
  | none => exact keeps_pure _
  | some intent =>
      refine keeps_ite ?_ (keeps_pure _)
      rcases ordersUnder ordersByTag intent.brokerTag with _ | ⟨bo, _ | _⟩
      · exact keeps_bind (keeps_markStatus
          ((allowsFills_survives id).status _ _)) fun _ => keeps_pure _
      · exact keeps_resolveIntentAgainstOrder (allowsFills_survives id) _ _ _
      · exact keeps_duplicate intentId intent _ _

/-- The first stage loses no position: it is in the state it was in, or
in ERROR with a break. -/
theorem along_survives (orders : List BrokerOrder) :
    Prog.Along (OnRows (Survives id)) (resolveStage orders) :=
  along_onRows (along_resolveStage keeps_survives_intentSession
    (allowsFills_survives id).breaks orders)

-- ======================================================== the whole pass

/-- A pass that got both answers of the broker and returned decides every
position that was OPEN: either it fell to ERROR with a break before the
position stage, or it was still OPEN then, and its exposure mismatch, if
it has one, is recorded exactly when a leg has no live row. -/
theorem mismatch_recorded_iff (hlocal : ∀ s ∈ reconciler, s.Local)
    {w w' : World} {m₀ m₁ : Move} {ms rest : List Move}
    {items : List ReconciliationItem}
    (horders : m₀.read = none) (hbook : m₁.read = none)
    (hrun : (reconcile reconciler).run (m₀ :: m₁ :: ms) w
      = (.returned items, w', rest)) :
    ∃ resolved found ms', (resolveStage (w.interfere m₀).broker.orderbook).run
        ms ((w.interfere m₀).interfere m₁) = (.returned resolved, found, ms')
      ∧ ∀ (id : Nat) (p : Position), w.db.rows.positions[id]? = some p →
        p.state = .open → ∃ q, found.db.rows.positions[id]? = some q
          ∧ (q.state = .error
              ∧ w.db.rows.breaks.length < found.db.rows.breaks.length
            ∨ q.state = .open
              ∧ ((Mismatched m₁.positions found.db.rows id →
                    Recorded id w.db.rows w'.db.rows items)
                ↔ ¬ Mismatched m₁.positions found.db.rows id
                  ∨ SomeLegFlat m₁.positions found.db.rows id)) := by
  rw [reconcile_run reconciler horders
    (show Except.ok m₁.positions = _ by rw [hbook])] at hrun
  obtain ⟨resolved, found, ms', hresolve, hrun⟩ := Prog.run_bind_returned hrun
  obtain ⟨examined, w'', ms'', hexamine, hrun⟩ := Prog.run_bind_returned hrun
  cases hrun
  refine ⟨resolved, found, ms', hresolve, fun id p hp hopen => ?_⟩
  -- the position as the position stage finds it
  have hsurvives : Survives id w.db.rows found.db.rows := by
    have hturns : Survives id w.db.rows
        ((w.interfere m₀).interfere m₁).db.rows :=
      Session.Frame.trans (R := Survives id)
        (waits_interfere (R := Survives id) w m₀).rows
        (waits_interfere (R := Survives id) (w.interfere m₀) m₁).rows
    have hstage : Survives id ((w.interfere m₀).interfere m₁).db.rows
        ((resolveStage (w.interfere m₀).broker.orderbook).after ms
          ((w.interfere m₀).interfere m₁)).db.rows :=
      (along_survives _).after ms _
    unfold Prog.after at hstage
    rw [hresolve] at hstage
    exact Session.Frame.trans (R := Survives id) hturns hstage
  obtain ⟨q, hq, hstate⟩ := hsurvives.2 p hp
  refine ⟨q, hq, ?_⟩
  rcases hstate with hsame | herror
  · refine .inr ⟨hsame.trans hopen, ?_⟩
    -- the verdict of the position stage is the only word on it
    have hstage : (positionStage reconciler
        (liveSymbols (.ok m₁.positions))).Safe _ _ found _ :=
      positionStage_safe hlocal hq (hsame.trans hopen)
    have hverdict := hstage.run (fun _ _ => trivial : ∀ m ∈ ms', True)
    rw [hexamine] at hverdict
    obtain ⟨item, hitem, hof, hdecided, honly⟩ := hverdict examined rfl
    have hsilent := ((ensures_resolveStage
      (w.interfere m₀).broker.orderbook).safe
      ((w.interfere m₀).interfere m₁)).run
      (fun _ _ => trivial : ∀ m ∈ ms, True)
    rw [hresolve] at hsilent
    constructor
    · intro h
      by_cases hmismatch : Mismatched m₁.positions found.db.rows id
      · right
        by_contra hno
        exact (h hmismatch).reported item (List.mem_append_right _ hitem) hof
          (hdecided.2 hno)
      · exact .inl hmismatch
    · intro h hmismatch
      rcases h with hno | hflat
      · exact absurd hmismatch hno
      · obtain ⟨houtcome, b, hb, hbreak⟩ := hdecided.1 hflat
        refine ⟨⟨b, List.drop_subset_drop_left _ hsurvives.1.length_le hb,
          hbreak⟩, fun item' hitem' hof' => ?_⟩
        rcases List.mem_append.1 hitem' with hitem' | hitem'
        · exact absurd hof' (hsilent resolved rfl item' hitem' id)
        · rw [honly item' hitem' hof', houtcome]
          intro h
          cases h
  · exact .inl herror

-- =========================================================== a short leg

/-- What the engine's docstring says of OPEN positions: whatever the
broker's book, a pass that returns has recorded every mismatch. -/
def RecordsEveryMismatch (reconciler : Option PositionReconciler) : Prop :=
  ∀ (w w' : World) (m₀ m₁ : Move) (ms rest : List Move)
    (items : List ReconciliationItem), m₀.read = none → m₁.read = none →
    (reconcile reconciler).run (m₀ :: m₁ :: ms) w = (.returned items, w', rest) →
    ∀ (id : Nat) (p : Position), w.db.rows.positions[id]? = some p →
      p.state = .open → Mismatched m₁.positions w.db.rows id →
      Recorded id w.db.rows w'.db.rows items

namespace SampleDay

/-- The broker's book after part of the call leg was bought back by
hand: 38 of the 75 are still short. -/
def partlySquaredOff : List BrokerPosition :=
  [⟨(contract .ce).tradingsymbol, -38⟩, ⟨(contract .pe).tradingsymbol, -75⟩]

theorem seam_local : seam.Local := fun _ _ hne =>
  ⟨keeps_transitionState (allowsVerdict_spares hne) _ _ _,
    keeps_transitionState (allowsVerdict_spares hne) _ _ _⟩

/-- The pass with a partly squared off book. -/
def pass : Prog.Ending Exc (List ReconciliationItem) × World × List Move :=
  (reconcile (some seam)).run (still :: { positions := partlySquaredOff }
    :: List.replicate 4 still) open_

theorem pass_returned : pass = (.returned [consistent], pass.2) :=
  Prod.ext (by decide +kernel) rfl

/-- The position is half covered, and the pass calls it consistent. -/
theorem partlySquaredOff_unrecorded : ¬ RecordsEveryMismatch (some seam) := by
  intro hclaim
  have hrecorded := hclaim open_ pass.2.1 still
    { positions := partlySquaredOff } (List.replicate 4 still) pass.2.2
    [consistent] rfl rfl pass_returned 0 _
    (List.getElem?_eq_getElem (by decide +kernel)) (by decide +kernel)
    (by decide +kernel)
  exact hrecorded.reported consistent (List.mem_singleton.2 rfl) rfl rfl

/-- The law at that pass. -/
theorem pass_decided : ∃ resolved found ms',
    (resolveStage (open_.interfere still).broker.orderbook).run
      (List.replicate 4 still)
      ((open_.interfere still).interfere { positions := partlySquaredOff })
        = (.returned resolved, found, ms')
      ∧ ∀ (id : Nat) (p : Position), open_.db.rows.positions[id]? = some p →
        p.state = .open → ∃ q, found.db.rows.positions[id]? = some q
          ∧ (q.state = .error
              ∧ open_.db.rows.breaks.length < found.db.rows.breaks.length
            ∨ q.state = .open
              ∧ ((Mismatched partlySquaredOff found.db.rows id →
                    Recorded id open_.db.rows pass.2.1.db.rows [consistent])
                ↔ ¬ Mismatched partlySquaredOff found.db.rows id
                  ∨ SomeLegFlat partlySquaredOff found.db.rows id)) :=
  mismatch_recorded_iff (fun s hs => by cases hs; exact seam_local) rfl rfl
    pass_returned

end SampleDay

end AlgoPlatform
