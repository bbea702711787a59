/-
When the collector's stream follows its windows, and what makes it fall
behind.

`Followed` says that the stream intends exactly the tokens of the windows.
An iteration keeps it as long as what the window commits reaches the
stream: no call to the database fails and no message that takes tokens
back raises, and a new session begins with nothing subscribed
(`InStep`). Then it holds after every iteration of every run
(`stream_follows_windows`).

Where the upsert of new instruments fails, the window has already been
committed, so the next diff no longer names them, and they are never
subscribed (`failed_upsert_never_subscribed`).
-/
import Mathlib.Data.Finset.Union
import AlgoPlatform.Model.Collector
import AlgoPlatform.Proofs.AtmWindow

open Basis

namespace AlgoPlatform

-- ============================================================ the tokens

namespace AtmWindowManager

variable {m m' : AtmWindowManager} {n : Nat} {underlying : String}
  {answers : WindowAnswers} {diff : WindowDiff}

/-- The subscribed tokens are those of the windows. -/
theorem mem_subscribedTokens (h : m.current.keys.Nodup) {token : Nat} :
    token ∈ m.subscribedTokens
      ↔ ∃ underlying, token ∈ (m.window underlying).keys := by
  unfold subscribedTokens window
  rw [List.mem_flatMap]
  constructor
  · intro ⟨entry, hentry, htoken⟩
    refine ⟨entry.1, ?_⟩
    rw [(Dict.get_eq_some_iff h).mpr hentry]
    exact htoken
  · intro ⟨underlying, htoken⟩
    cases hget : m.current.get underlying with
    | none =>
        rw [hget] at htoken
        exact absurd htoken List.not_mem_nil
    | some legs =>
        rw [hget] at htoken
        exact ⟨(underlying, legs), (Dict.get_eq_some_iff h).mp hget, htoken⟩

end AtmWindowManager

namespace CollectorService

variable {cfg : CollectorConfig} {a : IterationAnswers}
  {s s' : CollectorService} {owner : Nat → String}

-- =============================================== statement vocabulary

/-- Each underlying's chain lists tokens of its own. -/
def ListsOwn (owner : Nat → String) (a : IterationAnswers) : Prop :=
  ∀ underlying chain, (a.window underlying).chain = .ok chain →
    ∀ strike opt symbol token,
      chain strike opt = some (symbol, token) → owner token = underlying

/-- Nothing comes between the windows and the stream in this iteration. -/
structure InStep (s : CollectorService) (a : IterationAnswers) : Prop where
  upserts : ∀ underlying, a.upsertRaises underlying = false
  messages : ∀ underlying, a.unsubscribeRaises underlying = false
  session : a.phase = .connect → s.phase ≠ some .connect →
    s.stream.subscribed = ∅

/-- Every iteration of a run meets a condition on the state it starts in
and its answers. -/
def AllSteps (cfg : CollectorConfig)
    (P : CollectorService → IterationAnswers → Prop) (s : CollectorService) :
    List IterationAnswers → Prop
  | [] => True
  | a :: answers => P s a ∧ AllSteps cfg P (iteration cfg a s).2 answers

/-- The stream intends the tokens of the windows, and these are each in a
window of their own underlying. -/
structure Followed (owner : Nat → String) (s : CollectorService) : Prop where
  keys : s.atm.current.keys.Nodup
  owned : ∀ underlying token,
    token ∈ (s.atm.window underlying).keys → owner token = underlying
  synced : ∀ token, token ∈ s.stream.subscribed
    ↔ ∃ underlying, token ∈ (s.atm.window underlying).keys

-- ================================================ the stream stays as is

/-- Windows and intended set are as they were. -/
def SameTokens (s s' : CollectorService) : Prop :=
  s'.atm = s.atm ∧ s'.stream.subscribed = s.stream.subscribed

instance : Std.Refl SameTokens := ⟨fun _ => ⟨rfl, rfl⟩⟩

instance : IsTrans CollectorService SameTokens :=
  ⟨fun _ _ _ h h' => ⟨h'.1.trans h.1, h'.2.trans h.2⟩⟩

theorem Followed.of_same (h : Followed owner s) (hsame : SameTokens s s') :
    Followed owner s' := by
  obtain ⟨hatm, hsubscribed⟩ := hsame
  refine ⟨?_, ?_, ?_⟩
  · rw [hatm]
    exact h.keys
  · rw [hatm]
    exact h.owned
  · rw [hatm, hsubscribed]
    exact h.synced

theorem spawn_same : Step.Leads SameTokens (spawn a) := by
  unfold spawn
  split
  · exact Step.Leads.modify fun _ => ⟨rfl, rfl⟩
  · exact Step.Leads.lift _
  · exact Step.Leads.bind (.modify fun _ => ⟨rfl, rfl⟩) fun _ =>
      Step.Leads.lift _

theorem startStream_same : Step.Leads SameTokens (startStream a) := by
  refine Step.Leads.bind .get fun s => ?_
  split
  · exact Step.Leads.pure _
  · exact spawn_same

theorem restartStream_same : Step.Leads SameTokens (restartStream a) := by
  refine Step.Leads.bind ?_ fun _ => .modify fun _ => ⟨rfl, rfl⟩
  exact Step.Leads.bind (.modify fun _ => ⟨rfl, rfl⟩) fun _ => spawn_same

/-- The watchdog rebuilds the socket and leaves the intended set. -/
theorem watchdog_same : Step.Leads SameTokens (watchdog cfg a) := by
  unfold watchdog
  split
  · exact Step.Leads.modify fun _ => ⟨rfl, rfl⟩
  · split
    · refine Step.Leads.bind (.modify fun _ => ⟨rfl, rfl⟩) fun _ => ?_
      split
      · refine Step.Leads.bind .get fun s => ?_
        generalize heartbeatStalled cfg a s = beat
        obtain ⟨stalled, hbLevel⟩ := beat
        refine Step.Leads.bind (.modify fun _ => ⟨rfl, rfl⟩) fun _ => ?_
        split
        · exact restartStream_same
        · exact Step.Leads.pure _
      · exact Step.Leads.pure _
    · refine Step.Leads.bind (.modify fun _ => ⟨rfl, rfl⟩) fun _ => ?_
      refine Step.Leads.bind .get fun s => ?_
      dsimp only
      split
      · split
        · exact Step.Leads.pure _
        · exact restartStream_same
      · exact Step.Leads.pure _

-- ============================================================= sessions

theorem followed_empty {s : CollectorService} (hatm : s.atm = {})
    (hsubscribed : s.stream.subscribed = ∅) : Followed owner s := by
  refine ⟨?_, ?_, ?_⟩
  · rw [hatm]
    exact List.nodup_nil
  · intro underlying token htoken
    rw [hatm] at htoken
    exact absurd htoken List.not_mem_nil
  · intro token
    rw [hatm, hsubscribed]
    refine iff_of_false (Finset.notMem_empty _) fun ⟨_, htoken⟩ => ?_
    exact absurd htoken List.not_mem_nil

/-- A transition keeps both or empties both. -/
theorem onPhase_follows (h : Followed owner s)
    (hsession : a.phase = .connect → s.phase ≠ some .connect →
      s.stream.subscribed = ∅) : Followed owner (onPhase a s).2 := by
  unfold onPhase
  rw [Step.bind_ok (Step.get_apply s)]
  split
  · exact h
  · rename_i hchange
    rw [Step.bind_ok (Step.modify_apply _ s)]
    cases hphase : a.phase with
    | connect =>
        rw [hphase] at hchange
        dsimp only
        rw [Step.bind_ok (Step.modify_apply _ _)]
        refine Followed.of_same ?_ (startStream_same _)
        exact followed_empty rfl (hsession hphase hchange)
    | collect => exact h.of_same ⟨rfl, rfl⟩
    | closed => exact followed_empty rfl rfl
    | preOpen => exact followed_empty rfl rfl
    | freeze => exact h.of_same ⟨rfl, rfl⟩
    | flush => exact h.of_same ⟨rfl, rfl⟩

-- ============================================================= windows

/-- The service with another intended set. -/
def intending (s : CollectorService) (tokens : Finset Nat) :
    CollectorService :=
  { s with stream := { s.stream with subscribed := tokens } }

theorem unsubscribe_run {underlying : String} (tokens : List Nat)
    (hmessage : a.unsubscribeRaises underlying = false) :
    unsubscribe a underlying tokens s
      = (.ok (), s.intending (s.stream.subscribed \ tokens.toFinset)) := by
  show (if _ ∧ a.unsubscribeRaises underlying = true then raise _
    else pure () : Act Unit)
      (s.intending (s.stream.subscribed \ tokens.toFinset)) = _
  rw [hmessage, if_neg fun h => Bool.false_ne_true h.2]
  rfl

/-- The intended set takes the tokens in before the message is sent. -/
theorem subscribe_state {underlying : String} (tokens : List Nat) :
    (subscribe a underlying tokens s).2
      = s.intending (s.stream.subscribed ∪ tokens.toFinset) := by
  show ((if _ then raise _ else pure () : Act Unit)
    (s.intending (s.stream.subscribed ∪ tokens.toFinset))).2 = _
  split <;> rfl

/-- What is skipped for an empty list would have done nothing for it. -/
theorem ifAny_eq {α : Type} {items : List α} {act : List α → Act Unit}
    (hnone : act [] s = (.ok (), s)) : ifAny items act s = act items s := by
  cases items with
  | nil => exact hnone.symm
  | cons item items => rfl

/-- A diff that nothing stops reaches the stream whole. -/
theorem applyDiff_state {underlying : String} {diff : WindowDiff}
    (hupsert : a.upsertRaises underlying = false)
    (hmessage : a.unsubscribeRaises underlying = false) :
    (applyDiff a underlying diff s).2
      = s.intending ((s.stream.subscribed \ diff.toUnsubscribe.toFinset)
          ∪ diff.toSubscribe.toFinset) := by
  have hfirst : ifAny diff.newInstruments
      (fun _ => upsertInstruments a underlying) s = (.ok (), s) := by
    have hrun : upsertInstruments a underlying s = (.ok (), s) := by
      unfold upsertInstruments
      rw [hupsert]
      rfl
    rw [ifAny_eq hrun]
    exact hrun
  have hsecond : ifAny diff.toUnsubscribe (unsubscribe a underlying) s
      = (.ok (), s.intending
          (s.stream.subscribed \ diff.toUnsubscribe.toFinset)) := by
    rw [ifAny_eq]
    · exact unsubscribe_run _ hmessage
    · rw [unsubscribe_run _ hmessage, List.toFinset_nil, Finset.sdiff_empty]
      rfl
  unfold applyDiff
  rw [Step.bind_ok hfirst, Step.bind_ok hsecond]
  cases hnew : diff.toSubscribe with
  | nil =>
      rw [List.toFinset_nil, Finset.union_empty]
      rfl
  | cons token tokens => exact subscribe_state _

/-- A recompute brings window and stream to the new target together. -/
theorem recomputeOne_follows (h : Followed owner s) (underlying : String)
    (howner : ListsOwn owner a)
    (hupsert : a.upsertRaises underlying = false)
    (hmessage : a.unsubscribeRaises underlying = false) :
    Followed owner (recomputeOne cfg a underlying s).2 := by
  unfold recomputeOne
  rw [Step.bind_ok (Step.get_apply s)]
  cases hreturned : s.atm.recompute cfg.strikesEachSide underlying
      (a.window underlying) with
  | error e => exact h
  | ok returned =>
      obtain ⟨diff, atm⟩ := returned
      dsimp only
      obtain ⟨spec, spot, strike, expiry, chain, hanswers, -, -, hsubscribe,
        hunsubscribe, -, hatm⟩ := AtmWindowManager.recompute_cases hreturned
      rw [Step.bind_ok (Step.modify_apply _ s), applyDiff_state hupsert hmessage]
      generalize htarget : targetWindow cfg.strikesEachSide spec underlying
        strike expiry chain = target at hsubscribe hunsubscribe hatm
      have hwindow : ∀ u, (atm.window u).keys
          = if u = underlying then target.keys else (s.atm.window u).keys := by
        intro u
        rw [hatm, AtmWindowManager.window_put]
        split <;> rfl
      have hown : ∀ token ∈ target.keys, owner token = underlying := by
        intro token htoken
        rw [← htarget, mem_targetWindow] at htoken
        obtain ⟨k, -, opt, symbol, hlisted⟩ := htoken
        exact howner underlying chain (by rw [hanswers]) _ opt symbol token
          hlisted
      refine ⟨?_, ?_, ?_⟩
      · show atm.current.keys.Nodup
        rw [hatm]
        exact Dict.nodup_keys_put h.keys ..
      · intro u token htoken
        change token ∈ (atm.window u).keys at htoken
        rw [hwindow u] at htoken
        split at htoken
        · rename_i hu
          rw [hu]
          exact hown token htoken
        · exact h.owned u token htoken
      · intro token
        show token ∈ (s.stream.subscribed \ diff.toUnsubscribe.toFinset)
            ∪ diff.toSubscribe.toFinset
          ↔ ∃ u, token ∈ (atm.window u).keys
        simp only [Finset.mem_union, Finset.mem_sdiff, List.mem_toFinset,
          hsubscribe, hunsubscribe, List.mem_filter, decide_eq_true_eq,
          h.synced token, hwindow]
        constructor
        · intro hmem
          rcases hmem with ⟨⟨u, hu⟩, hkept⟩ | ⟨hnew, -⟩
          · by_cases hsame : u = underlying
            · subst hsame
              refine ⟨u, ?_⟩
              rw [if_pos rfl]
              by_contra hgone
              exact hkept ⟨hu, hgone⟩
            · exact ⟨u, by rw [if_neg hsame]; exact hu⟩
          · exact ⟨underlying, by rw [if_pos rfl]; exact hnew⟩
        · intro ⟨u, hu⟩
          split at hu
          · by_cases hold : token ∈ (s.atm.window underlying).keys
            · exact Or.inl ⟨⟨underlying, hold⟩, fun hgone => hgone.2 hu⟩
            · exact Or.inr ⟨hu, hold⟩
          · rename_i hother
            refine Or.inl ⟨⟨u, hu⟩, fun hgone => hother ?_⟩
            -- a token of another underlying is in no diff of this one
            rw [← h.owned u token hu, ← h.owned underlying token hgone.1]

theorem recomputeAll_follows (h : Followed owner s)
    (howner : ListsOwn owner a)
    (hupserts : ∀ underlying, a.upsertRaises underlying = false)
    (hmessages : ∀ underlying, a.unsubscribeRaises underlying = false)
    (underlyings : List String) :
    Followed owner (recomputeAll cfg a underlyings s).2 := by
  induction underlyings generalizing s with
  | nil => exact h
  | cons underlying underlyings ih =>
      have hone : Followed owner (recomputeOne cfg a underlying s).2 :=
        recomputeOne_follows h underlying howner (hupserts underlying)
          (hmessages underlying)
      unfold recomputeAll
      cases hrun : recomputeOne cfg a underlying s with
      | mk result s' =>
          rw [hrun] at hone
          cases result with
          | error e =>
              rw [Step.bind_error hrun]
              exact hone
          | ok _ =>
              rw [Step.bind_ok hrun]
              exact ih hone

-- =========================================================== iterations

/-- An iteration in which nothing comes between keeps the stream at the
windows, however far it gets. -/
theorem iteration_follows (h : Followed owner s) (howner : ListsOwn owner a)
    (hstep : InStep s a) : Followed owner (iteration cfg a s).2 := by
  have hrule : ∀ {α β : Type} {p : Act α} {q : α → Act β}
      {s : CollectorService}, Followed owner (p s).2 →
      (∀ r s', Followed owner s' → Followed owner (q r s').2) →
        Followed owner ((p >>= q) s).2 := by
    intro α β p q s hp hq
    cases hrun : p s with
    | mk result s' =>
        rw [hrun] at hp
        cases result with
        | error e =>
            rw [Step.bind_error hrun]
            exact hp
        | ok r =>
            rw [Step.bind_ok hrun]
            exact hq r s' hp
  unfold iteration
  refine hrule (onPhase_follows h hstep.session) fun _ s' h => ?_
  refine hrule (h.of_same (watchdog_same s')) fun _ s' h => ?_
  rw [Step.bind_ok (Step.get_apply s')]
  split
  · refine hrule (recomputeAll_follows h howner hstep.upserts hstep.messages _)
      fun _ s' h => ?_
    exact h.of_same ⟨rfl, rfl⟩
  · exact h

theorem run_follows (h : Followed owner s) {answers : List IterationAnswers}
    (howner : ∀ a ∈ answers, ListsOwn owner a)
    (hsteps : AllSteps cfg InStep s answers) :
    Followed owner (run cfg s answers) := by
  induction answers generalizing s with
  | nil => exact h
  | cons a answers ih =>
      have hfirst : Followed owner (iteration cfg a s).2 :=
        iteration_follows h (howner a List.mem_cons_self) hsteps.1
      exact ih hfirst (fun a ha => howner a (List.mem_cons_of_mem _ ha))
        hsteps.2

/-- In a run in which no upsert fails, no message that takes tokens back
raises and each session begins with nothing subscribed, the stream intends
exactly the subscribed tokens of the windows after every iteration. -/
theorem stream_follows_windows (cfg : CollectorConfig) (owner : Nat → String)
    (answers : List IterationAnswers)
    (howner : ∀ a ∈ answers, ListsOwn owner a)
    (hsteps : AllSteps cfg InStep {} answers) (token : Nat) :
    token ∈ (run cfg {} answers).stream.subscribed
      ↔ token ∈ (run cfg {} answers).atm.subscribedTokens := by
  have h : Followed owner (run cfg {} answers) :=
    run_follows (followed_empty rfl rfl) howner hsteps
  rw [AtmWindowManager.mem_subscribedTokens h.keys]
  exact h.synced token

-- ================================================== an upsert that fails

/-- Sources that list one underlying, NIFTY. -/
def niftyWindow (underlying : String) : WindowAnswers :=
  if underlying = "NIFTY" then AtmWindowManager.holedAnswers 110
  else { AtmWindowManager.holedAnswers 110 with chain := .error .database }

/-- An iteration while collecting, at a clock reading. -/
def collecting (mono : ℚ) : IterationAnswers :=
  { phase := .collect, mono, window := niftyWindow }

theorem collecting_listsOwn {a : IterationAnswers}
    (ha : a.window = niftyWindow) : ListsOwn (fun _ => "NIFTY") a := by
  intro underlying chain hchain _ _ _ _ _
  rw [ha] at hchain
  unfold niftyWindow at hchain
  split at hchain
  · rename_i hu
    exact hu.symm
  · cases hchain

/-- Two quiet iterations, at a spot and at the same spot later. -/
theorem stream_follows_windows_quiet :
    1 ∈ (run { underlyings := ["NIFTY"], strikesEachSide := 1 } {}
        [collecting 100, collecting 131]).stream.subscribed
      ↔ 1 ∈ (run { underlyings := ["NIFTY"], strikesEachSide := 1 } {}
        [collecting 100, collecting 131]).atm.subscribedTokens :=
  have hquiet : ∀ s mono, InStep s (collecting mono) := fun _ _ =>
    ⟨fun _ => rfl, fun _ => rfl, fun h => nomatch h⟩
  stream_follows_windows _ (fun _ => "NIFTY") _
    (List.forall_mem_cons.mpr ⟨collecting_listsOwn rfl,
      List.forall_mem_singleton.mpr (collecting_listsOwn rfl)⟩)
    ⟨hquiet _ _, hquiet _ _, trivial⟩ 1

/-- A session begun while tokens are subscribed forgets the windows but
not them: here spot has moved on by the time they are built again. -/
example :
    let cfg : CollectorConfig :=
      { underlyings := ["NIFTY"], strikesEachSide := 0 }
    let s := run cfg {} [collecting 100,
      { collecting 101 with phase := .connect },
      { collecting 200 with
        window := fun _ => AtmWindowManager.holedAnswers 150 }]
    (s.stream.subscribed, s.atm.subscribedTokens) = ({1, 2, 3}, [3]) := by
  decide +kernel

/-- The upsert of the first window fails. The next iteration recomputes and
completes, but its diff is empty: what the window counts as subscribed the
stream never hears of. -/
theorem failed_upsert_never_subscribed :
    ¬ ∀ (cfg : CollectorConfig) (owner : Nat → String)
      (answers : List IterationAnswers) (a : IterationAnswers),
      (∀ x ∈ answers ++ [a], ListsOwn owner x) →
      a.phase = .collect →
      (iteration cfg a (run cfg {} answers)).1 = .ok true →
      ∀ token,
        token ∈ (iteration cfg a (run cfg {} answers)).2.stream.subscribed
        ↔ token
          ∈ (iteration cfg a (run cfg {} answers)).2.atm.subscribedTokens := by
  intro h
  have hall := h { underlyings := ["NIFTY"], strikesEachSide := 1 }
    (fun _ => "NIFTY")
    [{ collecting 100 with upsertRaises := fun _ => true }] (collecting 101)
    (by
      intro x hx
      simp only [List.cons_append, List.nil_append, List.mem_cons,
        List.not_mem_nil, or_false] at hx
      rcases hx with rfl | rfl
      · exact collecting_listsOwn rfl
      · exact collecting_listsOwn rfl)
    rfl (by decide +kernel) 1
  exact absurd hall (by decide +kernel)

end CollectorService

end AlgoPlatform
