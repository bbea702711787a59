/-
One day, several instances.

# Apart

A session works on its own instance's position of the day. Any other
position keeps its row and its trades (`StraddleKept`), and a position
that is new is the instance's own (`Founds`).

# The day's books

So the ledger of the whole day (`DayBooks`) outlasts every session of
every instance: the session's own position by the books of one instance,
any other by being left alone. Only a CLOSED position has a realized
P&L.
-/
import AlgoPlatform.Proofs.LedgerRuns
import AlgoPlatform.Proofs.Recovery

open Basis Basis.Session

namespace AlgoPlatform

-- =============================================================== founding

/-- Only a CLOSED position has a realized P&L. -/
def Position.Settled (p : Position) : Prop :=
  p.state ≠ .closed → p.realizedPnl = none

/-- Every position is new, the context's and settled, or was there: on
the same day, and still settled. -/
def Founds (ctx : StrategyContext) (r r' : Rows) : Prop :=
  ∀ (id : Nat) (p' : Position), r'.positions[id]? = some p' →
    (OfDay ctx p' ∧ p'.Settled) ∨ ∃ p, r.positions[id]? = some p
      ∧ p.SameDay p' ∧ (p.Settled → p'.Settled)

variable {ctx : StrategyContext} {id : Nat} {own : Nat → Prop}
variable {r r' : Rows}

theorem Position.SameDay.ofDay {p q : Position} (h : p.SameDay q) :
    OfDay ctx q ↔ OfDay ctx p := by
  unfold OfDay
  rw [h.strategyInstanceId, h.tradeDate]

private theorem founds_of_same (h : r'.positions = r.positions) :
    Founds ctx r r' := by
  intro id p' hp'
  exact .inr ⟨p', h ▸ hp', ⟨rfl, rfl⟩, fun h => h⟩

instance : BlindToOrders (Founds ctx) where
  refl := fun _ => founds_of_same rfl
  trans := by
    intro r r' r'' h h' id p'' hp''
    rcases h' id p'' hp'' with hnew | ⟨p', hp', hday', hsettled'⟩
    · exact .inl hnew
    rcases h id p' hp' with ⟨hday, hsettled⟩ | ⟨p, hp, hday, hsettled⟩
    · exact .inl ⟨hday'.ofDay.2 hday, hsettled' hsettled⟩
    · exact .inr ⟨p, hp,
        ⟨hday'.strategyInstanceId.trans hday.strategyInstanceId,
          hday'.tradeDate.trans hday.tradeDate⟩,
        fun h => hsettled' (hsettled h)⟩
  orders := fun _ _ => founds_of_same rfl
  breaks := fun _ _ => founds_of_same rfl

/-- One position is written in place, and left on its day and settled. -/
private theorem founds_modify {f : Position → Position}
    (hpositions : r'.positions = r.positions.modify id f)
    (hf : ∀ p, r.positions[id]? = some p →
      p.SameDay (f p) ∧ (p.Settled → (f p).Settled)) :
    Founds ctx r r' := by
  intro k p' hp'
  rw [hpositions] at hp'
  by_cases hk : id = k
  · subst hk
    rw [List.getElem?_modify_eq] at hp'
    obtain ⟨p, hp, rfl⟩ := Option.map_eq_some_iff.1 hp'
    exact .inr ⟨p, hp, (hf p hp).1, (hf p hp).2⟩
  · rw [List.getElem?_modify_ne _ _ hk] at hp'
    exact .inr ⟨p', hp', ⟨rfl, rfl⟩, fun h => h⟩

/-- No transition leads out of CLOSED. -/
private theorem transition_founds (id : Nat) (toState : PositionState)
    (actor : StateTransitionActor) (reason : String) :
    Keeps (Founds ctx) (PositionStateMachine.transition id toState actor reason)
    := by
  intro db
  refine (transition_meets db id toState actor reason).imp ?_ fun _ h => h
  intro _ db' hdb'
  obtain ⟨q, hq, hgate, hpositions, -⟩ := hdb'
  refine founds_modify hpositions fun p hp => ⟨⟨rfl, rfl⟩, fun hp' hopen => ?_⟩
  obtain rfl := Option.some_inj.1 (hq.symm.trans hp)
  refine hp' fun hclosed => ?_
  rw [hclosed] at hgate
  rcases hgate with rfl | hgate
  · exact hopen rfl
  · cases hgate

/-- A close writes the realized P&L and CLOSED in one commit. -/
private theorem close_founds (ctx' : StrategyContext) (reason : ExitReason)
    (actor : StateTransitionActor) (scan : List Nat) :
    Keeps (Founds ctx) (ExitLogic.closePosition ctx' id reason actor scan) := by
  intro db
  unfold ExitLogic.closePosition PositionRepository.getById
    PositionRepository.listTradesForPosition PositionRepository.updateMoney
  rw [meets_bind, meets_fetch]
  cases hp : db.rows.positions[id]? with
  | none => trivial
  | some p =>
      dsimp only
      rw [meets_bind, meets_fetch, meets_bind, meets_lift]
      refine ⟨fun legs _ => ?_, fun _ _ => trivial⟩
      rw [meets_bind, meets_flush]
      refine ⟨fun _ => ?_, fun _ => trivial⟩
      rw [meets_bind]
      refine (transition_meets _ _ _ _ _).imp ?_ fun _ h => h
      intro _ db' hdb'
      obtain ⟨-, -, -, hpositions, -⟩ := hdb'
      rw [Rows.setPosition_positions, List.modify_modify_eq] at hpositions
      exact founds_modify hpositions fun _ _ =>
        ⟨⟨rfl, rfl⟩, fun _ h => absurd rfl h⟩

private theorem straddle_founds (id : Nat) :
    AllowsStraddle (Founds ctx) id fun _ => True where
  inst := fun _ _ _ => founds_of_same rfl
  column := by
    intro r f hf
    refine founds_modify rfl fun p _ => ⟨⟨(hf p).1.strategyInstanceId,
      (hf p).1.tradeDate⟩, fun hp hopen => ?_⟩
    rw [(hf p).2]
    exact hp ((hf p).1.state ▸ hopen)
  transition := transition_founds id
  close := close_founds
  intents := fun _ _ => founds_of_same rfl
  intent := fun _ => ⟨fun _ _ => founds_of_same rfl,
    fun _ => founds_of_same rfl⟩
  trade := fun _ _ _ _ _ => founds_of_same rfl

theorem allowsCycles_founds : AllowsCycles (Founds ctx) where
  straddle := straddle_founds
  intents := fun _ _ => founds_of_same rfl
  trades := fun _ _ _ => founds_of_same rfl

theorem allowsEntry_founds : AllowsEntry (Founds ctx) ctx := by
  intro selection
  refine keeps_getOrCreate (keeps_getByInstanceAndDate _ _) ?_
  refine keeps_bind (keeps_fetch _) fun _ => ?_
  refine keeps_bind (keeps_flush fun r id p' hp' => ?_) fun _ => keeps_pure _
  dsimp only at hp'
  rw [List.getElem?_append] at hp'
  split_ifs at hp'
  · exact .inr ⟨p', hp', ⟨rfl, rfl⟩, fun h => h⟩
  · rw [List.mem_singleton.1 (List.mem_of_getElem? hp')]
    exact .inl ⟨⟨rfl, rfl⟩, fun _ => rfl⟩

-- ================================================================= apart

/-- Position `id` is as it was, and so are the trades of `own`; no other
trade has become one of the position's. -/
structure StraddleKept (id : Nat) (own : Nat → Prop) (r r' : Rows) : Prop where
  position : r'.positions[id]? = r.positions[id]?
  legs : ∀ j, own j → r'.trades[j]? = r.trades[j]?
  others : ∀ (j : Nat) (t' : Trade), ¬ own j → r'.trades[j]? = some t' →
    t'.positionId = id → ∃ t, r.trades[j]? = some t ∧ t.positionId = id

private theorem straddleKept_of_same (hpositions : r'.positions = r.positions)
    (htrades : r'.trades = r.trades) : StraddleKept id own r r' where
  position := by rw [hpositions]
  legs := fun _ _ => by rw [htrades]
  others := fun _ t' _ ht' hof => ⟨t', htrades ▸ ht', hof⟩

instance : BlindToOrders (StraddleKept id own) where
  refl := fun _ => straddleKept_of_same rfl rfl
  trans := by
    intro r r' r'' h h'
    refine ⟨h'.position.trans h.position,
      fun j hj => (h'.legs j hj).trans (h.legs j hj),
      fun j t'' hj ht'' hof => ?_⟩
    obtain ⟨t', ht', hof'⟩ := h'.others j t'' hj ht'' hof
    exact h.others j t' hj ht' hof'
  orders := fun _ _ => straddleKept_of_same rfl rfl
  breaks := fun _ _ => straddleKept_of_same rfl rfl

/-- Another trade, written in place. -/
private theorem straddleKept_setTrade {i : Nat} (hi : ¬ own i)
    {f : Trade → Trade} (hf : ∀ t : Trade, t.Stands (f t)) (r : Rows) :
    StraddleKept id own r (r.setTrade i f) := by
  refine ⟨rfl, fun j hj => ?_, fun j t' hj ht' hof => ?_⟩
  · rw [Rows.setTrade_trades, List.getElem?_modify_ne]
    intro hij
    exact hi (hij ▸ hj)
  · by_cases hij : i = j
    · subst hij
      rw [Rows.setTrade_trades, List.getElem?_modify_eq] at ht'
      obtain ⟨t, ht, rfl⟩ := Option.map_eq_some_iff.1 ht'
      exact ⟨t, ht, (hf t).positionId ▸ hof⟩
    · rw [Rows.setTrade_trades, List.getElem?_modify_ne _ _ hij] at ht'
      exact ⟨t', ht', hof⟩

/-- Another position, written in place. -/
private theorem straddleKept_modify {k : Nat} (hk : k ≠ id)
    {f : Position → Position}
    (hpositions : r'.positions = r.positions.modify k f)
    (htrades : r'.trades = r.trades) : StraddleKept id own r r' := by
  refine ⟨?_, fun _ _ => by rw [htrades], fun _ t' _ ht' hof =>
    ⟨t', htrades ▸ ht', hof⟩⟩
  rw [hpositions, List.getElem?_modify_ne _ _ hk]

private theorem allowsPosition_straddleKept {k : Nat} (hk : k ≠ id) :
    AllowsPosition (StraddleKept id own) k where
  inst := fun _ _ _ => straddleKept_of_same rfl rfl
  position := fun _ _ _ => straddleKept_modify hk rfl rfl
  transition := by
    intro toState actor reason db
    refine (transition_meets db k toState actor reason).imp ?_ fun _ h => h
    intro _ db' hdb'
    obtain ⟨-, -, -, hpositions, htrades, -⟩ := hdb'
    exact straddleKept_modify hk hpositions htrades

theorem spares_straddleKept : SparesStraddle (StraddleKept id own) id own where
  straddle := fun _ hk =>
    { (allowsPosition_straddleKept hk).ending with
      intents := fun _ _ => straddleKept_of_same rfl rfl
      intent := fun _ => ⟨fun _ _ => straddleKept_of_same rfl rfl,
        fun _ => straddleKept_of_same rfl rfl⟩
      trade := fun r _ hi _ hf => straddleKept_setTrade hi hf r }
  position := StraddleKept.position
  legs := by
    intro r r' h j hj
    unfold Rows.legs
    rw [List.getElem?_map, List.getElem?_map, h.legs j hj]

/-- A straddle that is new is another's. -/
theorem EntryLogic.AddsStraddle.straddleKept
    (h : EntryLogic.AddsStraddle r r')
    (hid : id < r.positions.length) (hown : ∀ j, own j → j < r.trades.length) :
    StraddleKept id own r r' := by
  obtain ⟨ts, htrades, hts⟩ := h.trades
  refine ⟨?_, fun j hj => ?_, fun j t' _ ht' hof => ?_⟩
  · obtain ⟨ps, hps⟩ := h.positions
    rw [← hps, List.getElem?_append_left hid]
  · rw [htrades, List.getElem?_append_left (hown j hj)]
  · rw [htrades, List.getElem?_append] at ht'
    split_ifs at ht'
    · exact ⟨t', ht', hof⟩
    · have hnew := hts t' (List.mem_of_getElem? ht')
      omega

/-- A straddle that is kept is the straddle it was. -/
theorem Straddle.kept {a b : Nat} {ce pe : Trade}
    (h : Straddle r id a b ce pe)
    (hkept : StraddleKept id (fun j => j = a ∨ j = b) r r') :
    Straddle r' id a b ce pe := by
  have hof : ∀ (j : Nat) (t : Trade), r.trades[j]? = some t →
      t.positionId = id → j = a ∨ j = b := by
    intro j t ht hof
    have hmem := (mem_select (p := fun t : Trade => t.positionId = id)).2
      ⟨ht, decide_eq_true hof⟩
    rw [h.legs] at hmem
    simp only [List.mem_cons, Prod.mk.injEq, List.not_mem_nil, or_false]
      at hmem
    exact hmem.imp And.left And.left
  refine { h with legs := ?_ }
  rw [← h.legs]
  refine select_congr fun j t hsel => ?_
  have hid : t.positionId = id := of_decide_eq_true hsel
  by_cases hj : j = a ∨ j = b
  · rw [hkept.legs j hj]
  · constructor
    · intro ht
      obtain ⟨t₀, ht₀, hof₀⟩ := hkept.others j t hj ht hid
      exact absurd (hof j t₀ ht₀ hof₀) hj
    · intro ht
      exact absurd (hof j t ht hid) hj

-- ============================================================== sessions

/-- An entry leaves the positions of other instances alone. -/
theorem EntryLogic.enter_spares {v : World} (hv : BooksAt ctx v)
    (hother : ElsewhereThan ctx id v) (hid : id < v.db.rows.positions.length)
    (hown : ∀ j, own j → v.db.rows.LegOf id j) (inputs : EntryInputs) :
    (enter ctx inputs).Safe (fun _ => True)
      (OnRows (StraddleKept id own) v) v
      fun _ v' => OnRows (StraddleKept id own) v v' := by
  have hadded : ∀ v', Begun ctx v v' → OnRows (StraddleKept id own) v v' := by
    intro v' h
    refine h.adds.straddleKept hid fun j hj => ?_
    obtain ⟨leg, hleg, -⟩ := hown j hj
    have hlt := (List.getElem?_eq_some_iff.1 hleg).1
    unfold Rows.legs at hlt
    rwa [List.length_map] at hlt
  unfold enter
  rw [Prog.safe_bind]
  refine (begin_safe inputs hv).imp hadded fun r v' hr => ?_
  obtain ⟨hbegun, hdesk⟩ := hr
  have hv' : OnRows (StraddleKept id own) v v' := hadded v' hbegun
  cases r with
  | error e => exact hv'
  | ok begun =>
      rw [Prog.andThen_ok]
      cases begun with
      | error result => exact hv'
      | ok d =>
          obtain ⟨p, ce, pe, hp, hday, -, hlegs, -⟩ := hdesk d rfl
          have hne : d.positionId ≠ id := by
            intro hsame
            rw [hsame] at hp
            exact spares_straddleKept.elsewhere hother hv' p hp hday
          -- the legs of the new straddle are not the position's
          have hnot : ∀ {j : Nat} {t : Trade}, v'.db.rows.trades[j]? = some t →
              t.positionId = d.positionId → ¬ own j := by
            intro j t ht hof hj
            obtain ⟨leg, hleg, hlof⟩ := hown j hj
            rw [← spares_straddleKept.legs hv' j hj] at hleg
            unfold Rows.legs at hleg
            rw [List.getElem?_map, ht] at hleg
            cases hleg
            exact hne (hof.symm.trans hlof)
          exact along_from ((spares_straddleKept.straddle _ hne).bears.placeAndFinalize
            ctx rfl ⟨hnot hlegs.trade_ce hlegs.ce_of,
              hnot hlegs.trade_pe hlegs.pe_of⟩) hv'

/-- A session leaves the positions of other instances alone. -/
theorem World.session_spares {w : World} (hw : BooksAt ctx w)
    (hother : ElsewhereThan ctx id w) (hid : id < w.db.rows.positions.length)
    (hown : ∀ j, own j → w.db.rows.LegOf id j) (s : Start) :
    StraddleKept id own w.db.rows (w.session ctx s).db.rows := by
  have hsafe : (s.job.program ctx).Safe (fun _ => True)
      (OnRows (StraddleKept id own) w) w
      fun _ w' => OnRows (StraddleKept id own) w w' := by
    cases s.job with
    | enter inputs =>
        show (discard (EntryLogic.enter ctx inputs)).Safe _ _ _ _
        rw [Prog.safe_discard]
        exact EntryLogic.enter_spares hw hother hid hown inputs
    | exit acquired reason =>
        show (discard (ExitLogic.exit ctx acquired reason)).Safe _ _ _ _
        rw [Prog.safe_discard]
        exact (ExitLogic.exit_spares spares_straddleKept hother hown acquired
          reason).imp (fun _ h => h.rows) fun _ _ h => h.rows
    | recover acquired =>
        show (discard (Strategy1.recover ctx acquired)).Safe _ _ _ _
        rw [Prog.safe_discard]
        exact (Strategy1.recover_spares spares_straddleKept hother hown
          acquired).imp (fun _ h => h.rows) fun _ _ h => h.rows
  exact hsafe.after fun _ _ => trivial

-- ============================================================= day's books

/-- The ledger of a day: every position of it is settled and has its
straddle, and their figures hold. -/
def DayBooks (date : Date) (r : Rows) : Prop :=
  ∀ (id : Nat) (p : Position), r.positions[id]? = some p →
    p.tradeDate = date →
    p.Settled ∧ ∃ a b ce pe, Straddle r id a b ce pe
      ∧ Figures r.money p ce pe

variable {date : Date}

theorem DayBooks.books (h : DayBooks date r) (hday : ctx.today = date) :
    Books ctx r := by
  intro id p hp hof
  obtain ⟨-, a, b, ce, pe, hlegs, hfigures⟩ := h id p hp (hof.2.trans hday)
  exact ⟨a, b, p, ce, pe, hp, hof, rfl, hlegs, hfigures⟩

/-- One session of any instance keeps the day's books. -/
theorem dayBooks_session {w : World} (hday : ctx.today = date)
    (hw : DayBooks date w.db.rows) (s : Start) :
    DayBooks date (w.session ctx s).db.rows := by
  have hbooks : BooksAt ctx w := hw.books hday
  intro id p' hp' hdate
  have halong : Prog.Along (OnRows (Founds ctx)) (s.job.program ctx) :=
    allowsCycles_founds.bears.job ctx allowsEntry_founds s.job
  have hfounds : Founds ctx w.db.rows (w.session ctx s).db.rows :=
    halong.after s.moves w
  have hmoney : (w.session ctx s).db.rows.money = w.db.rows.money :=
    congrArg MoneyColumns.keep (columns_run ctx w [s])
  have hsettled : p'.Settled := by
    rcases hfounds id p' hp' with ⟨-, hsettled⟩ | ⟨p, hp, hsame, hsettled⟩
    · exact hsettled
    · exact hsettled (hw id p hp (hsame.tradeDate ▸ hdate)).1
  refine ⟨hsettled, ?_⟩
  by_cases hof : OfDay ctx p'
  · -- the session's own position
    obtain ⟨a, b, q, ce, pe, hq, -, -, hlegs, hfigures⟩ :=
      books_run hbooks [s] id p' hp' hof
    obtain rfl := Option.some_inj.1 (hq.symm.trans hp')
    exact ⟨a, b, ce, pe, hlegs, hfigures⟩
  · -- another's, which was there
    obtain ⟨p, hp, hsame, -⟩ := (hfounds id p' hp').resolve_left
      fun h => hof h.1
    obtain ⟨-, a, b, ce, pe, hlegs, hfigures⟩ :=
      hw id p hp (hsame.tradeDate ▸ hdate)
    have hother : ElsewhereThan ctx id w := by
      intro q hq hqday
      obtain rfl := Option.some_inj.1 (hq.symm.trans hp)
      exact hof (hsame.ofDay.2 hqday)
    have hown : ∀ j, j = a ∨ j = b → w.db.rows.LegOf id j := by
      intro j hj
      unfold Rows.LegOf Rows.legs
      rcases hj with rfl | rfl
      · rw [List.getElem?_map, hlegs.trade_ce]
        exact ⟨_, rfl, hlegs.ce_of⟩
      · rw [List.getElem?_map, hlegs.trade_pe]
        exact ⟨_, rfl, hlegs.pe_of⟩
    have hkept := World.session_spares hbooks hother
      (List.getElem?_eq_some_iff.1 hp).1 hown s
    rw [hkept.position, hp] at hp'
    obtain rfl := Option.some_inj.1 hp'
    exact ⟨a, b, ce, pe, hlegs.kept hkept, hmoney ▸ hfigures⟩

/-- So does any run of any instances on the day. -/
theorem dayBooks_runAll (ss : List (StrategyContext × Start))
    (hss : ∀ s ∈ ss, s.1.today = date) :
    ∀ w : World, DayBooks date w.db.rows →
      DayBooks date (w.runAll ss).db.rows := by
  induction ss with
  | nil => exact fun _ hw => hw
  | cons s ss ih =>
      intro w hw
      obtain ⟨hs, hss⟩ := List.forall_mem_cons.1 hss
      exact ih hss (w.session s.1 s.2) (dayBooks_session hs hw s.2)

end AlgoPlatform
