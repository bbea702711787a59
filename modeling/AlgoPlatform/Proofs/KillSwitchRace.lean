/-
How many flags concurrent kill-switch calls leave active.

# The race

An engage looks its key up and then inserts; nothing in the schema stops
two rows with one key. Two engages that both look up before either
commits leave two active flags. An engage that finds its key active
returns without a write, so a disengage that commits before the engage
returns leaves the engage answered and no flag behind.

# What keeps the calls apart

`Apart` excludes exactly these two overlaps: an engage that finds its key
free finds no other engage of the key on its way to a commit, and no
disengage commits a clearance while an engage that was told "already
engaged" is still to return. Along such a run (`Holds`, by induction on
the events) a key on its way to be inserted has no active flag, so no key
ever has two, and a key somebody was told is engaged has one.

`Apart` speaks of the programs the calls are at. `staysApart` decides it
for a given run from the next statement of each call alone, which is
enough: an engage that is to decide is at its INSERT or holds a write, one
that was told is at its COMMIT.
-/
import AlgoPlatform.Proofs.KillSwitch

open Basis

namespace AlgoPlatform.KillSwitch

variable {targets : Targets} {key k : FlagKey} {s s' : Calls} {t u i j : Nat}

-- =============================================== statement vocabulary

/-- The row is an active flag with the key. -/
def ActiveAt (table : List (Slot RiskControlFlag)) (key : FlagKey)
    (i : Nat) : Prop :=
  ∃ v, rowAt table i = some v ∧ v.value = ⟨key, true⟩

/-- Call `t` is an engage about to look its key up. -/
def LooksUp (s : Calls) (t : Nat) (key : FlagKey) : Prop :=
  s.Runs t (.engage key) (Command.engage key).script

/-- Call `t` is an engage that found its key free and is yet to commit. -/
def Deciding (s : Calls) (t : Nat) (key : FlagKey) : Prop :=
  ∃ prog, s.Runs t (.engage key) prog
    ∧ ((∃ k, prog = .insert ⟨key, true⟩ k)
      ∨ ∃ i, writeOf t s.table i ≠ none)

/-- Call `t` is an engage that found its key active and is yet to
return. -/
def Told (s : Calls) (t : Nat) (key : FlagKey) : Prop :=
  ∃ k, s.Runs t (.engage key) (.commit k) ∧ ∀ i, writeOf t s.table i = none

/-- Call `t` is a disengage about to commit a clearance. -/
def Clears (s : Calls) (t : Nat) (key : FlagKey) : Prop :=
  ∃ k, s.Runs t (.disengage key) (.commit k) ∧ ∃ i, writeOf t s.table i ≠ none

/-- No engage finds its key free while another is on its way to insert
it, and no clearance of a key is committed while an engage that found it
active is yet to return. -/
structure Apart (targets : Targets) (es : List (Server.Event Command)) :
    Prop where
  engages : ∀ pre t post, es = pre ++ .acts t :: post → ∀ key,
    LooksUp (calls targets pre) t key →
    ¬ ActiveFlag (calls targets pre).table key →
    ∀ u, ¬ Deciding (calls targets pre) u key
  disengages : ∀ pre t post, es = pre ++ .acts t :: post → ∀ key,
    Clears (calls targets pre) t key → ∀ u, ¬ Told (calls targets pre) u key

/-- An engage of the key was answered, and no disengage of it since. -/
def Answered (key : FlagKey) (answers : List (Answer Command Exc Unit)) :
    Prop :=
  Since (fun a => a.job = .engage key ∧ a.result = .ok ())
    (fun a => a.job = .disengage key ∧ a.result = .ok ()) answers

/-- At every moment a key has at most one active flag, and exactly one
after an engage with no later disengage. -/
structure OneFlag (targets : Targets) (es : List (Server.Event Command)) :
    Prop where
  one : ∀ pre, pre <+: es → ∀ key i j,
    ActiveAt (calls targets pre).table key i →
    ActiveAt (calls targets pre).table key j → i = j
  stands : ∀ pre, pre <+: es → ∀ key,
    Answered key (calls targets pre).answers →
      ∃ i, ActiveAt (calls targets pre).table key i

-- ========================================================= the invariant

/-- Where in its transaction a call is. -/
inductive Phase (s : Calls) (t : Nat) : Command → FlagSession Unit → Prop
  | begun (command : Command)
      (valid : validateScopeTarget command.key = .ok ())
      (unwritten : ∀ i, writeOf t s.table i = none) :
      Phase s t command command.script
  | inserting (key : FlagKey) (unwritten : ∀ i, writeOf t s.table i = none) :
      Phase s t (.engage key) (.insert ⟨key, true⟩ fun
        | some _ => .commit (.done (.ok ()))
        | none => .rollback (.done (.error .integrity)))
  | staged (key : FlagKey) (i : Nat) (fresh : rowAt s.table i = none)
      (written : ∀ j, writeOf t s.table j
        = if j = i then some ⟨⟨key, true⟩, 1⟩ else none) :
      Phase s t (.engage key) (.commit (.done (.ok ())))
  | told (key : FlagKey) (unwritten : ∀ i, writeOf t s.table i = none) :
      Phase s t (.engage key) (.commit (.done (.ok ())))
  | clearing (key : FlagKey) (rows : List (Nat × Versioned RiskControlFlag))
      (listed : ∀ x ∈ rows, ∃ v, rowAt s.table x.1 = some v
        ∧ v.value.key = x.2.value.key)
      (written : ∀ i v, writeOf t s.table i = some v → v.value = ⟨key, false⟩
        ∧ ∃ w, rowAt s.table i = some w ∧ w.value.key = key) :
      Phase s t (.disengage key) (clearing key rows)
  | failed (command : Command) (e : Exc)
      (unwritten : ∀ key, command = .engage key →
        ∀ i, writeOf t s.table i = none) :
      Phase s t command (.rollback (.done (.error e)))

/-- What holds along a run whose calls are kept apart. -/
structure Holds (s : Calls) : Prop where
  one : ∀ key i j, ActiveAt s.table key i → ActiveAt s.table key j → i = j
  phase : ∀ t command prog, s.Runs t command prog → Phase s t command prog
  gone : ∀ t, (∀ command prog, ¬ s.Runs t command prog) →
    ∀ i, writeOf t s.table i = none
  exclusive : ∀ key t u, Deciding s t key → Deciding s u key → t = u
  free : ∀ key t, Deciding s t key → ¬ ∃ i, ActiveAt s.table key i
  told : ∀ key t, Told s t key → ∃ i, ActiveAt s.table key i
  stands : ∀ key, Answered key s.answers → ∃ i, ActiveAt s.table key i

/-- What the others do not touch leaves a call where it is. -/
private theorem Phase.stable {command : Command} {prog : FlagSession Unit}
    (h : Phase s u command prog)
    (hwrites : ∀ i, writeOf u s'.table i = writeOf u s.table i)
    (hrows : ∀ i w, rowAt s.table i = some w →
      ∃ w', rowAt s'.table i = some w' ∧ w'.value.key = w.value.key)
    (hfresh : ∀ i, writeOf u s.table i ≠ none → rowAt s.table i = none →
      rowAt s'.table i = none) : Phase s' u command prog := by
  cases h with
  | begun _ valid unwritten =>
      exact .begun _ valid fun i => (hwrites i).trans (unwritten i)
  | inserting key unwritten =>
      exact .inserting key fun i => (hwrites i).trans (unwritten i)
  | staged key i fresh written =>
      refine .staged key i (hfresh i ?_ fresh)
        fun j => (hwrites j).trans (written j)
      rw [written i, if_pos rfl]
      exact nofun
  | told key unwritten =>
      exact .told key fun i => (hwrites i).trans (unwritten i)
  | clearing key rows listed written =>
      refine .clearing key rows (fun x hx => ?_) fun i v hv => ?_
      · obtain ⟨w, hw, hkey⟩ := listed x hx
        obtain ⟨w', hw', hsame⟩ := hrows _ w hw
        exact ⟨w', hw', hsame.trans hkey⟩
      · obtain ⟨hvalue, w, hw, hkey⟩ := written i v (hwrites i ▸ hv)
        obtain ⟨w', hw', hsame⟩ := hrows _ w hw
        exact ⟨hvalue, w', hw', hsame.trans hkey⟩
  | failed _ e unwritten =>
      exact .failed _ e fun key hkey i =>
        (hwrites i).trans (unwritten key hkey i)

private theorem activeAt_congr (h : ∀ i, rowAt s'.table i = rowAt s.table i) :
    ActiveAt s'.table key i ↔ ActiveAt s.table key i := by
  unfold ActiveAt
  rw [h i]

/-- A step of call `t` that commits no flag. -/
private theorem Holds.unmoved (h : Holds s) (t : Nat)
    (hother : ∀ u, u ≠ t → ∀ command prog,
      s'.Runs u command prog ↔ s.Runs u command prog)
    (hrows : ∀ i, rowAt s'.table i = rowAt s.table i)
    (hwrites : ∀ u, u ≠ t → ∀ i, writeOf u s'.table i = writeOf u s.table i)
    (hphase : ∀ command prog, s'.Runs t command prog →
      Phase s' t command prog)
    (hgone : (∀ command prog, ¬ s'.Runs t command prog) →
      ∀ i, writeOf t s'.table i = none)
    (hdecides : ∀ key, Deciding s' t key → Deciding s t key
      ∨ (∀ u, ¬ Deciding s u key) ∧ ¬ ∃ i, ActiveAt s.table key i)
    (htold : ∀ key, Told s' t key → ∃ i, ActiveAt s.table key i)
    (hstands : ∀ key, Answered key s'.answers →
      ∃ i, ActiveAt s.table key i) : Holds s' := by
  have hactive : ∀ key i, ActiveAt s'.table key i ↔ ActiveAt s.table key i :=
    fun key i => activeAt_congr hrows
  have hdeciding : ∀ key u, u ≠ t → Deciding s' u key → Deciding s u key := by
    intro key u hu ⟨prog, hrun, hprog⟩
    refine ⟨prog, (hother u hu _ _).1 hrun, hprog.imp_right ?_⟩
    exact fun ⟨i, hi⟩ => ⟨i, hwrites u hu i ▸ hi⟩
  refine ⟨fun key i j hi hj => ?_, fun u command prog hrun => ?_,
    fun u hnot => ?_, fun key u v hu hv => ?_, fun key u hu => ?_,
    fun key u hu => ?_, fun key hkey => ?_⟩
  · exact h.one key i j ((hactive key i).1 hi) ((hactive key j).1 hj)
  · by_cases hu : u = t
    · subst hu
      exact hphase command prog hrun
    · refine (h.phase u command prog ((hother u hu _ _).1 hrun)).stable
        (hwrites u hu) (fun i w hw => ⟨w, (hrows i).trans hw, rfl⟩)
        fun i _ hi => (hrows i).trans hi
  · by_cases hu : u = t
    · subst hu
      exact hgone hnot
    · intro i
      rw [hwrites u hu]
      exact h.gone u (fun c p hrun => hnot c p ((hother u hu _ _).2 hrun)) i
  · by_cases hut : u = t
    · by_cases hvt : v = t
      · rw [hut, hvt]
      · rcases hdecides key (hut ▸ hu) with ht | ⟨hnone, -⟩
        · rw [hut]
          exact h.exclusive key t v ht (hdeciding key v hvt hv)
        · exact absurd (hdeciding key v hvt hv) (hnone v)
    · by_cases hvt : v = t
      · rcases hdecides key (hvt ▸ hv) with ht | ⟨hnone, -⟩
        · rw [hvt]
          exact h.exclusive key u t (hdeciding key u hut hu) ht
        · exact absurd (hdeciding key u hut hu) (hnone u)
      · exact h.exclusive key u v (hdeciding key u hut hu)
          (hdeciding key v hvt hv)
  · intro ⟨i, hi⟩
    have hi' := (hactive key i).1 hi
    by_cases hut : u = t
    · rcases hdecides key (hut ▸ hu) with ht | ⟨-, hnone⟩
      · exact h.free key t ht ⟨i, hi'⟩
      · exact hnone ⟨i, hi'⟩
    · exact h.free key u (hdeciding key u hut hu) ⟨i, hi'⟩
  · have hold : ∃ i, ActiveAt s.table key i := by
      by_cases hut : u = t
      · exact htold key (hut ▸ hu)
      · obtain ⟨k, hrun, hnone⟩ := hu
        exact h.told key u ⟨k, (hother u hut _ _).1 hrun,
          fun i => (hwrites u hut i).symm.trans (hnone i)⟩
    exact hold.imp fun i => (hactive key i).2
  · exact (hstands key hkey).imp fun i => (hactive key i).2

/-- What a commit of call `t` makes of the active flags. -/
private theorem activeAt_commit :
    ActiveAt ((s.table.map (·.commit t)).map (·.rollback t)) key i
      ↔ (∃ v, writeOf t s.table i = some v ∧ v.value = ⟨key, true⟩)
        ∨ writeOf t s.table i = none ∧ ActiveAt s.table key i := by
  unfold ActiveAt
  rw [rowAt_rollback, rowAt_commit]
  cases writeOf t s.table i <;> simp

/-- The state after call `t` commits and returns. -/
private def committed (s : Calls) (t : Nat) (command : Command) : Calls :=
  s.proceed t command (.done (.ok ())) (s.table.map (·.commit t))

/-- A commit keeps what holds if it keeps the active flags in order. -/
private theorem Holds.commit {command : Command} (h : Holds s)
    (hrun : s.Runs t command (.commit (.done (.ok ()))))
    (hkeys : ∀ i v w, writeOf t s.table i = some v →
      rowAt s.table i = some w → v.value.key = w.value.key)
    (hone : ∀ key i j, ActiveAt (committed s t command).table key i →
      ActiveAt (committed s t command).table key j → i = j)
    (hfree : ∀ key u, u ≠ t → Deciding s u key →
      ¬ ∃ i, ActiveAt (committed s t command).table key i)
    (htold : ∀ key u, Told s u key →
      ∃ i, ActiveAt (committed s t command).table key i)
    (hstands : ∀ key, Answered key (committed s t command).answers →
      ∃ i, ActiveAt (committed s t command).table key i) :
    Holds (committed s t command) := by
  have hlt : t < s.connections.length :=
    (List.getElem?_eq_some_iff.1 hrun).1
  have hself : ∀ c p, ¬ (committed s t command).Runs t c p := by
    intro c p hc
    exact ((Server.runs_proceed_self hlt).1 hc).2.2 _ rfl
  have hother : ∀ u, u ≠ t → ∀ c p,
      (committed s t command).Runs u c p ↔ s.Runs u c p :=
    fun u hu c p => Server.runs_proceed_other hu
  have hrow : ∀ i, rowAt (committed s t command).table i
      = (writeOf t s.table i).or (rowAt s.table i) := by
    intro i
    unfold committed
    rw [Server.proceed_done, rowAt_rollback, rowAt_commit]
  have hwrites : ∀ u i, writeOf u (committed s t command).table i
      = if u = t then none else writeOf u s.table i := by
    intro u i
    unfold committed
    rw [Server.proceed_done, writeOf_rollback, writeOf_commit]
    split <;> rfl
  have hkept : ∀ u, u ≠ t → ∀ i,
      writeOf u (committed s t command).table i = writeOf u s.table i :=
    fun u hu i => (hwrites u i).trans (if_neg hu)
  have hdeciding : ∀ key u, Deciding (committed s t command) u key →
      u ≠ t ∧ Deciding s u key := by
    intro key u ⟨prog, hprog, hwhere⟩
    have hu : u ≠ t := fun hu => hself _ _ (hu ▸ hprog)
    refine ⟨hu, prog, (hother u hu _ _).1 hprog, hwhere.imp_right ?_⟩
    exact fun ⟨i, hi⟩ => ⟨i, hkept u hu i ▸ hi⟩
  refine ⟨hone, fun u c p hc => ?_, fun u hnot i => ?_,
    fun key u v hu hv => ?_, fun key u hu => ?_, fun key u hu => ?_, hstands⟩
  · have hu : u ≠ t := fun hu => hself _ _ (hu ▸ hc)
    refine (h.phase u c p ((hother u hu c p).1 hc)).stable (hkept u hu)
      (fun i w hw => ?_) fun i hi hnone => ?_
    · rw [hrow i]
      cases hwrite : writeOf t s.table i with
      | none => exact ⟨w, hw, rfl⟩
      | some v => exact ⟨v, rfl, hkeys i v w hwrite hw⟩
    · rw [hrow i]
      cases hwrite : writeOf t s.table i with
      | none => exact hnone
      | some v =>
          obtain ⟨w, hw⟩ := Option.ne_none_iff_exists'.1 hi
          exact absurd (writeOf_inj hw hwrite) hu
  · rw [hwrites]
    split
    · rfl
    · rename_i hu
      exact h.gone u (fun c p hc => hnot c p ((hother u hu c p).2 hc)) i
  · exact h.exclusive key u v (hdeciding key u hu).2 (hdeciding key v hv).2
  · obtain ⟨hne, hold⟩ := hdeciding key u hu
    exact hfree key u hne hold
  · obtain ⟨k, hc, hnone⟩ := hu
    have hne : u ≠ t := fun hu => hself _ _ (hu ▸ hc)
    exact htold key u ⟨k, (hother u hne _ _).1 hc,
      fun i => (hkept u hne i).symm.trans (hnone i)⟩

/-- An engage commits its flag. -/
private theorem Holds.engaged (h : Holds s) (hrun : s.Runs t (.engage key)
      (.commit (.done (.ok ()))))
    (hfresh : rowAt s.table i = none)
    (hwritten : ∀ j, writeOf t s.table j
      = if j = i then some ⟨⟨key, true⟩, 1⟩ else none) :
    Holds (committed s t (.engage key)) := by
  have hdecides : Deciding s t key :=
    ⟨_, hrun, .inr ⟨i, by rw [hwritten i, if_pos rfl]; exact nofun⟩⟩
  have hactive : ∀ k j, ActiveAt (committed s t (.engage key)).table k j
      ↔ k = key ∧ j = i ∨ ActiveAt s.table k j := by
    intro k j
    refine activeAt_commit.trans ?_
    rw [hwritten j]
    by_cases hj : j = i
    · subst hj
      have hnot : ¬ ActiveAt s.table k j := by
        intro ⟨v, hv, _⟩
        rw [hfresh] at hv
        cases hv
      rw [if_pos rfl]
      constructor
      · intro hnew
        rcases hnew with ⟨v, hv, hvalue⟩ | ⟨hnone, _⟩
        · cases hv
          exact .inl ⟨(congrArg (·.key) hvalue).symm, rfl⟩
        · cases hnone
      · intro hnew
        rcases hnew with ⟨rfl, _⟩ | hold
        · exact .inl ⟨_, rfl, rfl⟩
        · exact absurd hold hnot
    · simp [hj]
  refine h.commit hrun (fun j v w hv hw => ?_) (fun k a b ha hb => ?_)
    (fun k u hu hd ⟨j, hj⟩ => ?_) (fun k u hu => ?_) fun k hk => ?_
  · rw [hwritten j] at hv
    split at hv
    · rename_i hj
      rw [hj, hfresh] at hw
      cases hw
    · cases hv
  · rcases (hactive k a).1 ha with ⟨rfl, rfl⟩ | holda
    · rcases (hactive k b).1 hb with ⟨-, rfl⟩ | holdb
      · rfl
      · exact absurd ⟨b, holdb⟩ (h.free k t hdecides)
    · rcases (hactive k b).1 hb with ⟨rfl, -⟩ | holdb
      · exact absurd ⟨a, holda⟩ (h.free k t hdecides)
      · exact h.one k a b holda holdb
  · rcases (hactive k j).1 hj with ⟨rfl, -⟩ | hj
    · exact hu (h.exclusive k u t hd hdecides)
    · exact h.free k u hd ⟨j, hj⟩
  · exact (h.told k u hu).imp fun j hj => (hactive k j).2 (.inr hj)
  · rcases since_snoc.1 hk with ⟨hjob, _⟩ | ⟨hold, _⟩
    · cases hjob
      exact ⟨i, (hactive key i).2 (.inl ⟨rfl, rfl⟩)⟩
    · exact (h.stands k hold).imp fun j hj => (hactive k j).2 (.inr hj)

/-- A disengage commits its clearances. -/
private theorem Holds.disengaged (h : Holds s) (hrun : s.Runs t
      (.disengage key) (.commit (.done (.ok ()))))
    (hwritten : ∀ i v, writeOf t s.table i = some v → v.value = ⟨key, false⟩
      ∧ ∃ w, rowAt s.table i = some w ∧ w.value.key = key)
    (hapart : ∀ k, Clears s t k → ∀ u, ¬ Told s u k) :
    Holds (committed s t (.disengage key)) := by
  have hactive : ∀ k j, ActiveAt (committed s t (.disengage key)).table k j
      ↔ writeOf t s.table j = none ∧ ActiveAt s.table k j := by
    intro k j
    refine activeAt_commit.trans (or_iff_right ?_)
    intro ⟨v, hv, hvalue⟩
    rw [(hwritten j v hv).1] at hvalue
    cases hvalue
  -- only the flags of the key are cleared
  have hkept : ∀ k j, k ≠ key → ActiveAt s.table k j →
      ActiveAt (committed s t (.disengage key)).table k j := by
    intro k j hk hj
    refine (hactive k j).2 ⟨?_, hj⟩
    by_contra hne
    obtain ⟨v, hv⟩ := Option.ne_none_iff_exists'.1 hne
    obtain ⟨-, w, hw, hkey⟩ := hwritten j v hv
    obtain ⟨w', hw', hvalue⟩ := hj
    rw [hw] at hw'
    cases hw'
    rw [hvalue] at hkey
    exact hk hkey
  refine h.commit hrun (fun j v w hv hw => ?_) (fun k a b ha hb => ?_)
    (fun k u hu hd ⟨j, hj⟩ => ?_) (fun k u hu => ?_) fun k hk => ?_
  · obtain ⟨hvalue, w', hw', hkey⟩ := hwritten j v hv
    rw [hw] at hw'
    cases hw'
    rw [hvalue, hkey]
  · exact h.one k a b ((hactive k a).1 ha).2 ((hactive k b).1 hb).2
  · exact h.free k u hd ⟨j, ((hactive k j).1 hj).2⟩
  · obtain ⟨j, hj⟩ := h.told k u hu
    by_cases hk : k = key
    · subst hk
      refine ⟨j, (hactive k j).2 ⟨?_, hj⟩⟩
      by_contra hne
      exact hapart k ⟨_, hrun, j, hne⟩ u hu
    · exact ⟨j, hkept k j hk hj⟩
  · rcases since_snoc.1 hk with ⟨hjob, _⟩ | ⟨hold, hnot⟩
    · cases hjob
    · have hne : k ≠ key := fun hk => hnot ⟨by rw [hk], rfl⟩
      exact (h.stands k hold).imp fun j => hkept k j hne

-- ================================================================ steps

theorem script_rejected (command : Command)
    (h : validateScopeTarget command.key ≠ .ok ()) :
    ∃ e, command.script = .done (.error e) := by
  cases hv : validateScopeTarget command.key with
  | ok _ => exact absurd hv h
  | error e =>
      refine ⟨e, ?_⟩
      cases command with
      | engage key =>
          unfold Command.script KillSwitch.engage
          dsimp only
          rw [show validateScopeTarget key = _ from hv]
          rfl
      | disengage key =>
          unfold Command.script KillSwitch.disengage
          dsimp only
          rw [show validateScopeTarget key = _ from hv]
          rfl

/-- A call that is let in has not returned. -/
theorem script_open (command : Command)
    (h : validateScopeTarget command.key = .ok ()) (r : Except Exc Unit) :
    command.script ≠ .done r := by
  cases command with
  | engage key =>
      rw [engage_script (show validateScopeTarget key = .ok () from h)]
      exact nofun
  | disengage key =>
      rw [disengage_script (show validateScopeTarget key = .ok () from h)]
      exact nofun

/-- A disengage has its commit ahead of it. -/
theorem clearing_open (key : FlagKey)
    (rows : List (Nat × Versioned RiskControlFlag)) (r : Except Exc Unit) :
    clearing key rows ≠ .done r := by
  induction rows with
  | nil =>
      intro h
      cases h
  | cons row rows ih =>
      unfold clearing
      split
      · intro h
        cases h
      · exact ih

/-- A call that goes on without committing a flag. -/
private theorem Holds.goesOn {command : Command} {prog : FlagSession Unit}
    {table : List (Slot RiskControlFlag)} (h : Holds s)
    (hlt : t < s.connections.length) (hopen : ∀ r, prog ≠ .done r)
    (hrows : ∀ i, rowAt table i = rowAt s.table i)
    (hwrites : ∀ u, u ≠ t → ∀ i, writeOf u table i = writeOf u s.table i)
    (hphase : ∀ s' : Calls, s'.table = table → Phase s' t command prog)
    (hdecides : ∀ key, command = .engage key →
      ((∃ k, prog = .insert ⟨key, true⟩ k) ∨ ∃ i, writeOf t table i ≠ none) →
      Deciding s t key
        ∨ (∀ u, ¬ Deciding s u key) ∧ ¬ ∃ i, ActiveAt s.table key i)
    (htold : ∀ key k, command = .engage key → prog = .commit k →
      (∀ i, writeOf t table i = none) → ∃ i, ActiveAt s.table key i) :
    Holds (s.proceed t command prog table) := by
  have htable : (s.proceed t command prog table).table = table := by
    rw [Server.proceed_open hopen]
  have hself : (s.proceed t command prog table).Runs t command prog :=
    (Server.runs_proceed_self hlt).2 ⟨rfl, rfl, hopen⟩
  refine h.unmoved t (fun u hu c p => Server.runs_proceed_other hu)
    (by rwa [htable]) (by rwa [htable]) (fun c p hc => ?_)
    (fun hnot => absurd hself (hnot command prog))
    (fun key ⟨p, hp, hwhere⟩ => ?_) (fun key ⟨k, hk, hnone⟩ => ?_)
    fun key hkey => ?_
  · obtain ⟨rfl, rfl, -⟩ := (Server.runs_proceed_self hlt).1 hc
    exact hphase _ htable
  · obtain ⟨rfl, rfl, -⟩ := (Server.runs_proceed_self hlt).1 hp
    rw [htable] at hwhere
    exact hdecides key rfl hwhere
  · obtain ⟨rfl, rfl, -⟩ := (Server.runs_proceed_self hlt).1 hk
    rw [htable] at hnone
    exact htold key k rfl rfl hnone
  · rw [Server.proceed_open hopen] at hkey
    exact h.stands key hkey

/-- A call that returns without committing a flag. -/
private theorem Holds.returns {command : Command} {r : Except Exc Unit}
    {table : List (Slot RiskControlFlag)} (h : Holds s)
    (hlt : t < s.connections.length)
    (hrows : ∀ i, rowAt table i = rowAt s.table i)
    (hwrites : ∀ u, u ≠ t → ∀ i, writeOf u table i = writeOf u s.table i)
    (hstands : ∀ key, command = .engage key → r = .ok () →
      ∃ i, ActiveAt s.table key i) :
    Holds (s.proceed t command (.done r) table) := by
  have hself : ∀ c p, ¬ (s.proceed t command (.done r) table).Runs t c p :=
    fun c p hc => ((Server.runs_proceed_self hlt).1 hc).2.2 r rfl
  refine h.unmoved t (fun u hu c p => Server.runs_proceed_other hu)
    (fun i => ?_) (fun u hu i => ?_) (fun c p hc => absurd hc (hself c p))
    (fun _ i => ?_) (fun key ⟨p, hp, _⟩ => absurd hp (hself _ p))
    (fun key ⟨k, hk, _⟩ => absurd hk (hself _ _)) fun key hkey => ?_
  · rw [Server.proceed_done, rowAt_rollback]
    exact hrows i
  · rw [Server.proceed_done, writeOf_rollback, if_neg hu]
    exact hwrites u hu i
  · rw [Server.proceed_done, writeOf_rollback, if_pos rfl]
  · rcases since_snoc.1 hkey with ⟨hjob, hr⟩ | ⟨hold, _⟩
    · exact hstands key hjob hr
    · exact h.stands key hold

private theorem Holds.start (h : Holds s) (command : Command) :
    Holds (Server.step (riskControlFlags targets) Command.script s
      (.start command)) := by
  have hruns : ∀ u c p, Server.Runs { s with connections :=
      s.connections ++ [⟨command, none⟩] } u c p ↔ s.Runs u c p := by
    intro u c p
    unfold Server.Runs
    dsimp only
    rw [List.getElem?_append]
    split
    · exact Iff.rfl
    · rename_i hge
      rw [List.getElem?_eq_none (Nat.le_of_not_lt hge)]
      cases hi : u - s.connections.length with
      | zero => simp
      | succ n => simp
  have hnot : ∀ c p, ¬ s.Runs s.connections.length c p := by
    intro c p hc
    exact Nat.lt_irrefl _ (List.getElem?_eq_some_iff.1 hc).1
  have hgone := h.gone _ hnot
  have hopened : Holds { s with connections :=
      s.connections ++ [⟨command, none⟩] } := by
    refine h.unmoved s.connections.length (fun u _ => hruns u)
      (fun _ => rfl) (fun _ _ _ => rfl)
      (fun c p hc => absurd ((hruns _ c p).1 hc) (hnot c p))
      (fun _ => hgone)
      (fun key ⟨p, hp, _⟩ => absurd ((hruns _ _ p).1 hp) (hnot _ p))
      (fun key ⟨k, hk, _⟩ => absurd ((hruns _ _ _).1 hk) (hnot _ _))
      h.stands
  have hlt : s.connections.length
      < (s.connections ++ [Connection.mk command none]).length := by simp
  show Holds (Server.proceed _ _ _ _ _)
  by_cases hvalid : validateScopeTarget command.key = .ok ()
  · have hopen := script_open command hvalid
    have hselect : ∀ key, command = .engage key →
        ∃ k, command.script = .select k := by
      intro key hkey
      subst hkey
      exact ⟨_, engage_script hvalid⟩
    refine hopened.goesOn hlt hopen (fun _ => rfl) (fun _ _ _ => rfl)
      (fun s' hs' => ?_) (fun key hkey hwhere => ?_)
      fun key k hkey hk _ => ?_
    · refine .begun command hvalid fun i => ?_
      rw [hs']
      exact hgone i
    · rcases hwhere with ⟨k, hk⟩ | ⟨i, hi⟩
      · obtain ⟨k', hk'⟩ := hselect key hkey
        rw [hk'] at hk
        cases hk
      · exact absurd (hgone i) hi
    · obtain ⟨k', hk'⟩ := hselect key hkey
      rw [hk'] at hk
      cases hk
  · obtain ⟨e, he⟩ := script_rejected command hvalid
    rw [he]
    exact hopened.returns hlt (fun _ => rfl) (fun _ _ _ => rfl)
      fun _ _ hr => nomatch hr

private theorem Holds.cutOff (h : Holds s) (t : Nat) :
    Holds (Server.step (riskControlFlags targets) Command.script s
      (.cutOff t)) := by
  by_cases hrun : ∃ c p, s.Runs t c p
  · obtain ⟨c, p, hrun⟩ := hrun
    have hlt := (List.getElem?_eq_some_iff.1 hrun).1
    have hstep : Server.step (riskControlFlags targets) Command.script s
        (.cutOff t) = { s with table := s.table.map (·.rollback t)
                               connections := s.connections.set t
                                 ⟨c, none⟩ } := by
      unfold Server.step
      dsimp only
      rw [show s.connections[t]? = _ from hrun]
    rw [hstep]
    have hself : ∀ c' p', ¬ Server.Runs { s with
        table := s.table.map (·.rollback t)
        connections := s.connections.set t ⟨c, none⟩ } t c' p' := by
      intro c' p' hc
      unfold Server.Runs at hc
      rw [List.getElem?_set_self hlt] at hc
      cases hc
    refine h.unmoved t (fun u hu c' p' => ?_) (fun i => rowAt_rollback)
      (fun u hu i => by rw [writeOf_rollback, if_neg hu])
      (fun c' p' hc => absurd hc (hself c' p'))
      (fun _ i => by rw [writeOf_rollback, if_pos rfl])
      (fun key ⟨p', hp', _⟩ => absurd hp' (hself _ p'))
      (fun key ⟨k, hk, _⟩ => absurd hk (hself _ _)) h.stands
    unfold Server.Runs
    rw [List.getElem?_set_ne (Ne.symm hu)]
  · rw [Server.step_cutOff_gone fun c p hc => hrun ⟨c, p, hc⟩]
    exact h

/-- The look-up of an engage. -/
private theorem Holds.looksUp (h : Holds s)
    (hvalid : validateScopeTarget key = .ok ())
    (hrun : LooksUp s t key) (hunwritten : ∀ i, writeOf t s.table i = none)
    (hapart : ¬ ActiveFlag s.table key → ∀ u, ¬ Deciding s u key) :
    Holds (Server.step (riskControlFlags targets) Command.script s
      (.acts t)) := by
  have hlt := (List.getElem?_eq_some_iff.1 hrun).1
  rw [Server.step_acts hrun, engage_script hvalid]
  show Holds (s.proceed t (.engage key) (if _ then _ else _) s.table)
  split
  · rename_i hfound
    refine h.goesOn hlt (fun _ => nofun) (fun _ => rfl) (fun _ _ _ => rfl)
      (fun s' hs' => .told key fun i => ?_) (fun k _ hwhere => ?_)
      fun k _ heq _ _ => ?_
    · rw [hs']
      exact hunwritten i
    · rcases hwhere with ⟨k', hk'⟩ | ⟨i, hi⟩
      · cases hk'
      · exact absurd (hunwritten i) hi
    · cases heq
      obtain ⟨⟨i, v⟩, hmem, hmatch⟩ := List.any_eq_true.1 hfound
      obtain ⟨hseen, hactive⟩ := List.mem_filter.1 hmem
      exact ⟨i, v, (mem_selectAll_of_unwritten hunwritten).1 hseen,
        value_of_matches hactive hmatch⟩
  · rename_i hfree
    have hnone : ¬ ActiveFlag s.table key := by
      intro ⟨i, v, hv, hvalue⟩
      refine hfree (List.any_eq_true.2 ⟨(i, v), List.mem_filter.2
        ⟨(mem_selectAll_of_unwritten hunwritten).2 hv, ?_⟩,
        matches_iff.2 (congrArg (·.key) hvalue)⟩)
      rw [hvalue]
    refine h.goesOn hlt (fun _ => nofun) (fun _ => rfl) (fun _ _ _ => rfl)
      (fun s' hs' => .inserting key fun i => ?_) (fun k heq _ => ?_)
      fun _ _ _ hcommit _ => nomatch hcommit
    · rw [hs']
      exact hunwritten i
    · cases heq
      exact .inr ⟨hapart hnone, hnone⟩

/-- The INSERT of an engage. -/
private theorem Holds.inserts (h : Holds s)
    (hrun : s.Runs t (.engage key) (.insert ⟨key, true⟩ fun
      | some _ => .commit (.done (.ok ()))
      | none => .rollback (.done (.error .integrity))))
    (hunwritten : ∀ i, writeOf t s.table i = none) :
    Holds (Server.step (riskControlFlags targets) Command.script s
      (.acts t)) := by
  have hlt := (List.getElem?_eq_some_iff.1 hrun).1
  have hdecides : Deciding s t key := ⟨_, hrun, .inl ⟨_, rfl⟩⟩
  rw [Server.step_acts hrun, Sql.step_insert]
  cases hins : insertRow (riskControlFlags targets) t ⟨key, true⟩ s.table with
  | none => exact h
  | some x =>
      obtain ⟨r, table⟩ := x
      rcases insertRow_cases hins with ⟨rfl, rfl⟩ | ⟨rfl, hrows, hwrites⟩
      · refine h.goesOn hlt (fun _ h => (by cases h)) (fun _ => rfl)
          (fun _ _ _ => rfl) (fun s' hs' => .failed _ _ fun _ _ i => ?_)
          (fun k heq _ => ?_) fun _ _ _ hcommit _ => (by cases hcommit)
        · rw [hs']
          exact hunwritten i
        · cases heq
          exact .inl hdecides
      · have hwritten : ∀ j, writeOf t table j
            = if j = s.table.length then some ⟨⟨key, true⟩, 1⟩ else none := by
          intro j
          rw [hwrites t j, hunwritten j]
          simp
        have hfresh : rowAt table s.table.length = none := by
          rw [hrows, rowAt, List.getElem?_eq_none (Nat.le_refl _)]
          rfl
        refine h.goesOn hlt (fun _ h => (by cases h)) hrows (fun u hu j => ?_)
          (fun s' hs' => .staged key s.table.length ?_ fun j => ?_)
          (fun k heq _ => ?_) fun _ _ _ _ hnone => ?_
        · rw [hwrites u j, if_neg fun h => hu h.1]
        · rw [hs']
          exact hfresh
        · rw [hs']
          exact hwritten j
        · cases heq
          exact .inl hdecides
        · have hnew := hnone s.table.length
          rw [hwritten, if_pos rfl] at hnew
          cases hnew

/-- The next UPDATE of a disengage, or its COMMIT. -/
private theorem Holds.clears (h : Holds s)
    (rows : List (Nat × Versioned RiskControlFlag))
    (hrun : s.Runs t (.disengage key) (clearing key rows))
    (hlisted : ∀ x ∈ rows, ∃ v, rowAt s.table x.1 = some v
      ∧ v.value.key = x.2.value.key)
    (hwritten : ∀ i v, writeOf t s.table i = some v → v.value = ⟨key, false⟩
      ∧ ∃ w, rowAt s.table i = some w ∧ w.value.key = key)
    (hapart : ∀ k, Clears s t k → ∀ u, ¬ Told s u k) :
    Holds (Server.step (riskControlFlags targets) Command.script s
      (.acts t)) := by
  have hlt := (List.getElem?_eq_some_iff.1 hrun).1
  induction rows with
  | nil =>
      rw [Server.step_acts hrun]
      exact h.disengaged hrun hwritten hapart
  | cons row rows ih =>
      unfold clearing at hrun
      split at hrun
      · rename_i hmatch
        rw [Server.step_acts hrun, Sql.step_update]
        cases hupd : updateRow t row.1 row.2.version
            { row.2.value with active := false } s.table with
        | none => exact h
        | some x =>
            obtain ⟨r, table⟩ := x
            rcases updateRow_cases hupd
              with ⟨rfl, rfl⟩ | ⟨rfl, -, -, hrows, hwrites⟩
            · exact h.goesOn hlt (fun _ h => (by cases h)) (fun _ => rfl)
                (fun _ _ _ => rfl) (fun s' hs' => .failed _ _ fun _ heq =>
                  (by cases heq)) (fun _ heq => (by cases heq))
                fun _ _ heq => (by cases heq)
            · have hkey : row.2.value.key = key := matches_iff.1 hmatch
              refine h.goesOn hlt (clearing_open key rows) hrows
                (fun u hu j => ?_) (fun s' hs' => .clearing key rows
                  (fun x hx => ?_) fun j v hv => ?_)
                (fun _ heq => (by cases heq)) fun _ _ heq => (by cases heq)
              · rw [hwrites u j, if_neg fun h => hu h.1]
              · rw [hs', hrows]
                exact hlisted x (List.mem_cons_of_mem _ hx)
              · rw [hs', hwrites t j] at hv
                rw [hs', hrows]
                split at hv
                · rename_i hj
                  cases hv
                  obtain ⟨w, hw, hsame⟩ := hlisted row List.mem_cons_self
                  refine ⟨?_, w, hj.2 ▸ hw, hsame.trans hkey⟩
                  dsimp only
                  rw [hkey]
                · exact hwritten j v hv
      · exact ih hrun fun x hx => hlisted x (List.mem_cons_of_mem _ hx)

/-- One statement of a call. -/
private theorem Holds.acts (h : Holds s) (t : Nat)
    (hengages : ∀ key, LooksUp s t key → ¬ ActiveFlag s.table key →
      ∀ u, ¬ Deciding s u key)
    (hdisengages : ∀ key, Clears s t key → ∀ u, ¬ Told s u key) :
    Holds (Server.step (riskControlFlags targets) Command.script s
      (.acts t)) := by
  by_cases hrun : ∃ c p, s.Runs t c p
  swap
  · rw [Server.step_acts_gone fun c p hc => hrun ⟨c, p, hc⟩]
    exact h
  obtain ⟨c, p, hrun⟩ := hrun
  have hlt := (List.getElem?_eq_some_iff.1 hrun).1
  cases h.phase t c p hrun with
  | begun _ valid unwritten =>
      cases c with
      | engage key => exact h.looksUp valid hrun unwritten (hengages key hrun)
      | disengage key =>
          have hkey : validateScopeTarget key = .ok () := valid
          rw [Server.step_acts hrun, disengage_script hkey]
          show Holds (s.proceed t (.disengage key) (clearing key _) s.table)
          refine h.goesOn hlt (clearing_open key _) (fun _ => rfl)
            (fun _ _ _ => rfl) (fun s' hs' => .clearing key _
              (fun x hx => ?_) fun i v hv => ?_)
            (fun _ heq => nomatch heq) fun _ _ heq => nomatch heq
          · obtain ⟨hseen, -⟩ := List.mem_filter.1 hx
            rw [hs']
            exact ⟨x.2, (mem_selectAll_of_unwritten unwritten).1 hseen, rfl⟩
          · rw [hs', unwritten i] at hv
            cases hv
  | inserting key unwritten => exact h.inserts hrun unwritten
  | staged key i fresh written =>
      rw [Server.step_acts hrun]
      exact h.engaged hrun fresh written
  | told key unwritten =>
      rw [Server.step_acts hrun]
      refine h.returns hlt (fun i => ?_) (fun u hu i => ?_)
        fun k heq _ => ?_
      · rw [rowAt_commit, unwritten i]
        rfl
      · rw [writeOf_commit, if_neg hu]
      · cases heq
        exact h.told key t ⟨_, hrun, unwritten⟩
  | clearing key rows listed written =>
      exact h.clears rows hrun listed written hdisengages
  | failed _ e unwritten =>
      rw [Server.step_acts hrun]
      exact h.returns hlt (fun i => rowAt_rollback)
        (fun u hu i => by rw [writeOf_rollback, if_neg hu])
        fun _ _ hr => nomatch hr

-- ================================================================= runs

theorem calls_snoc (es : List (Server.Event Command))
    (e : Server.Event Command) :
    calls targets (es ++ [e])
      = Server.step (riskControlFlags targets) Command.script
          (calls targets es) e :=
  Server.run_snoc es e

/-- Apart up to an event is apart before it. -/
theorem Apart.earlier {es rest : List (Server.Event Command)}
    (h : Apart targets (es ++ rest)) : Apart targets es where
  engages pre t post hsplit :=
    h.engages pre t (post ++ rest) (by rw [hsplit]; simp)
  disengages pre t post hsplit :=
    h.disengages pre t (post ++ rest) (by rw [hsplit]; simp)

/-- What holds along a run whose calls are kept apart. -/
theorem holds_calls {es : List (Server.Event Command)}
    (h : Apart targets es) : Holds (calls targets es) := by
  induction es using List.reverseRecOn with
  | nil =>
      exact {
        one := fun _ _ _ ⟨_, hv, _⟩ => nomatch hv
        phase := fun _ _ _ h => nomatch h
        gone := fun _ _ _ => rfl
        exclusive := fun _ _ _ ⟨_, h, _⟩ => nomatch h
        free := fun _ _ ⟨_, h, _⟩ => nomatch h
        told := fun _ _ ⟨_, h, _⟩ => nomatch h
        stands := fun _ h => absurd h since_nil }
  | append_singleton es e ih =>
      have hbefore := ih h.earlier
      rw [calls_snoc]
      cases e with
      | start command => exact hbefore.start command
      | cutOff t => exact hbefore.cutOff t
      | acts t =>
          exact hbefore.acts t (h.engages es t [] rfl)
            (h.disengages es t [] rfl)

/-- Kept apart, the calls leave one flag for each key. -/
theorem oneFlag_of_apart {es : List (Server.Event Command)}
    (h : Apart targets es) : OneFlag targets es := by
  have hpre : ∀ pre, pre <+: es → Holds (calls targets pre) := by
    intro pre ⟨rest, hrest⟩
    subst hrest
    exact holds_calls h.earlier
  exact ⟨fun pre hp => (hpre pre hp).one, fun pre hp => (hpre pre hp).stands⟩

-- ================================================= checking a given run

/-- Call `u` holds an uncommitted write. -/
def writes (s : Calls) (u : Nat) : Bool :=
  s.table.any fun slot => slot.pending.any fun w => w.1 = u

/-- Call `u` may be an engage of the key on its way to a commit. -/
def deciding (s : Calls) (key : FlagKey) (u : Nat) : Bool :=
  match s.connections[u]? with
  | some ⟨.engage k, some (.insert _ _)⟩ => k = key
  | some ⟨.engage k, some _⟩ => k = key && writes s u
  | _ => false

/-- Call `u` may be an engage of the key that is yet to return. -/
def returning (s : Calls) (key : FlagKey) (u : Nat) : Bool :=
  match s.connections[u]? with
  | some ⟨.engage k, some (.commit _)⟩ => k = key
  | _ => false

/-- The step of call `t` keeps the calls apart, as far as the statements
they are at tell. -/
def keepsApart (s : Calls) (t : Nat) : Bool :=
  match s.connections[t]? with
  | some ⟨.engage key, some (.select _)⟩
  | some ⟨.engage key, some (.done _)⟩ =>
      (List.range s.connections.length).all fun u => !deciding s key u
  | some ⟨.disengage key, some (.commit _)⟩ =>
      !writes s t
        || (List.range s.connections.length).all fun u => !returning s key u
  | _ => true

/-- Every step of the run passes the check. -/
def staysApart (targets : Targets) (es : List (Server.Event Command)) : Bool :=
  (List.range es.length).all fun n =>
    match es[n]? with
    | some (.acts t) => keepsApart (calls targets (es.take n)) t
    | _ => true

theorem writes_of_writeOf (h : writeOf u s.table i ≠ none) :
    writes s u = true := by
  unfold writeOf at h
  cases hrow : s.table[i]? with
  | none => simp [hrow] at h
  | some slot =>
      refine List.any_eq_true.2 ⟨slot, List.mem_of_getElem? hrow, ?_⟩
      cases hw : slot.pending with
      | none => simp [hrow, hw] at h
      | some w => simpa [hrow, hw] using h

theorem deciding_of (h : Deciding s u key) : deciding s key u = true := by
  obtain ⟨prog, hrun, hwhere⟩ := h
  unfold deciding
  rw [show s.connections[u]? = _ from hrun]
  rcases hwhere with ⟨k, rfl⟩ | ⟨i, hi⟩
  · simp
  · have hwrites := writes_of_writeOf hi
    cases prog <;> simp [hwrites]

theorem returning_of (h : Told s u key) : returning s key u = true := by
  obtain ⟨k, hrun, -⟩ := h
  unfold returning
  rw [show s.connections[u]? = _ from hrun]
  simp

private theorem runs_lt {command : Command} {prog : FlagSession Unit}
    (h : s.Runs u command prog) : u ∈ List.range s.connections.length :=
  List.mem_range.2 (List.getElem?_eq_some_iff.1 h).1

theorem keepsApart_of_staysApart {es pre post : List (Server.Event Command)}
    (h : staysApart targets es = true) (hsplit : es = pre ++ .acts t :: post) :
    keepsApart (calls targets pre) t = true := by
  have hn := List.all_eq_true.1 h pre.length
    (List.mem_range.2 (by simp [hsplit]))
  have hact : es[pre.length]? = some (.acts t) := by simp [hsplit]
  rw [hact] at hn
  dsimp only at hn
  rwa [hsplit, List.take_left] at hn

/-- A run each of whose steps passes the check is apart. -/
theorem apart_of_staysApart {es : List (Server.Event Command)}
    (h : staysApart targets es = true) : Apart targets es := by
  refine ⟨fun pre t post hsplit key hlooks _ u hu => ?_,
    fun pre t post hsplit key hclears u hu => ?_⟩
  · have hkeeps := keepsApart_of_staysApart h hsplit
    unfold keepsApart at hkeeps
    rw [show (calls targets pre).connections[t]? = _ from hlooks] at hkeeps
    have hno : (List.range (calls targets pre).connections.length).all
        (fun u => !deciding (calls targets pre) key u) = true := by
      by_cases hkey : validateScopeTarget key = .ok ()
      · rw [engage_script hkey] at hkeeps
        exact hkeeps
      · obtain ⟨e, he⟩ := script_rejected (.engage key) hkey
        rw [he] at hkeeps
        exact hkeeps
    obtain ⟨prog, hrun, -⟩ := id hu
    have hu' := List.all_eq_true.1 hno u (runs_lt hrun)
    rw [deciding_of hu] at hu'
    cases hu'
  · have hkeeps := keepsApart_of_staysApart h hsplit
    obtain ⟨k, hrun, i, hi⟩ := hclears
    unfold keepsApart at hkeeps
    rw [show (calls targets pre).connections[t]? = _ from hrun] at hkeeps
    dsimp only at hkeeps
    rw [writes_of_writeOf hi, Bool.not_true, Bool.false_or] at hkeeps
    obtain ⟨k', hrun', -⟩ := id hu
    have hu' := List.all_eq_true.1 hkeeps u (runs_lt hrun')
    rw [returning_of hu] at hu'
    cases hu'

/-- The key the sample runs are about. -/
def everything : FlagKey := ⟨.killSwitch, .global, none, none⟩

/-- Two processes engage at once: both look up, both insert. -/
theorem engaged_twice :
    ¬ ∀ (targets : Targets) (es : List (Server.Event Command)),
      OneFlag targets es := by
  intro h
  have hone := (h ⟨[], []⟩
    [.start (.engage everything), .start (.engage everything),
      .acts 0, .acts 1, .acts 0, .acts 1, .acts 0, .acts 1]).one _
    (List.prefix_refl _) everything 0 1
    ⟨⟨⟨everything, true⟩, 1⟩, by decide, rfl⟩
    ⟨⟨⟨everything, true⟩, 1⟩, by decide, rfl⟩
  cases hone

/-- Two engages and two disengages of one key, all under way at once. The
first disengage looks up while the first engage is between its look-up and
its INSERT; the second engage finds the flag active while the second
disengage is clearing it, and returns before the clearance commits. -/
def overlapping : List (Server.Event Command) :=
  [.start (.engage everything), .start (.disengage everything),
    .start (.engage everything), .start (.disengage everything),
    .acts 0, .acts 1, .acts 0, .acts 1, .acts 0,
    .acts 2, .acts 3, .acts 3, .acts 2, .acts 3]

/-- Overlapping calls that keep apart. -/
theorem oneFlag_sample : OneFlag ⟨[], []⟩ overlapping :=
  oneFlag_of_apart (apart_of_staysApart (by decide))

end AlgoPlatform.KillSwitch
