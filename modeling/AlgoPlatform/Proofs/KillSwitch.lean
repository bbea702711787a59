/-
What a history of kill-switch commands leaves engaged.

# The flags a history leaves

Commands are issued one after the other, so each finds a table nobody
else is writing. There an engage adds its flag unless it is active
already, and a disengage clears the flags with exactly its key; the
active keys after a history are those engaged and not since disengaged by
the same key (`active_after`).

# The history an operator means

A command's target is the account of an ACCOUNT flag and the instance of
a STRATEGY_INSTANCE flag. A STRATEGY_INSTANCE command may also carry an
account, which no query of the flags reads but `_matches` compares. So
the history means what it says (`KeepsHistory`) exactly when no instance
is disengaged while a flag engaged for it with another account stands.
-/
import Mathlib.Data.List.Induction
import AlgoPlatform.Basis.Since
import AlgoPlatform.Model.KillSwitch

open Basis

namespace AlgoPlatform

variable {targets : Targets} {key k : FlagKey}
  {table : List (Slot RiskControlFlag)} {i : Nat}

-- =============================================== statement vocabulary

/-- The account or instance a key's scope singles out. -/
def FlagKey.target (key : FlagKey) : Option Nat :=
  match key.scope with
  | .global => none
  | .account => key.accountId
  | .strategyInstance => key.strategyInstanceId

/-- Same type, same scope, same target. -/
def FlagKey.SameTarget (k k' : FlagKey) : Prop :=
  k.flagType = k'.flagType ∧ k.scope = k'.scope ∧ k.target = k'.target

/-- The scope covers an instance. -/
def FlagKey.Covers (key : FlagKey) (accountId instanceId : Nat) : Prop :=
  match key.scope with
  | .global => True
  | .account => key.accountId = some accountId
  | .strategyInstance => key.strategyInstanceId = some instanceId

/-- A command the validation lets through, on targets that exist. -/
def KillSwitch.Command.Valid (targets : Targets) (command : Command) : Prop :=
  KillSwitch.validateScopeTarget command.key = .ok ()
    ∧ targets.Has command.key

/-- Some flag with the key is active. -/
def ActiveFlag (table : List (Slot RiskControlFlag)) (key : FlagKey) : Prop :=
  ∃ i v, rowAt table i = some v ∧ v.value = ⟨key, true⟩

/-- What `is_halted` answers from a table. -/
def RiskCore.Halted (targets : Targets) (accountId instanceId : Nat)
    (table : List (Slot RiskControlFlag)) : Prop :=
  (RiskCore.isHalted accountId instanceId).alone (riskControlFlags targets) 0
    table = some (.ok true, table)

namespace FlagKey

theorem SameTarget.refl (key : FlagKey) : key.SameTarget key :=
  ⟨rfl, rfl, rfl⟩

theorem SameTarget.symm {k k' : FlagKey} (h : k.SameTarget k') :
    k'.SameTarget k :=
  ⟨h.1.symm, h.2.1.symm, h.2.2.symm⟩

end FlagKey

namespace KillSwitch

/-- Engaged, and not since disengaged for the same target. -/
def Standing (history : List Command) (key : FlagKey) : Prop :=
  Since (· = .engage key)
    (fun command => ∃ k, command = .disengage k ∧ k.SameTarget key) history

/-- Engaged, and not since disengaged by the very same key. -/
def StandingExactly (history : List Command) (key : FlagKey) : Prop :=
  Since (· = .engage key) (· = .disengage key) history

/-- At every point of the history the platform is halted for an instance
exactly when a command that covers it stands, and every disengage clears
its target and nothing else. -/
structure KeepsHistory (targets : Targets) (history : List Command) :
    Prop where
  halted : ∀ pre, pre <+: history → ∀ accountId instanceId,
    RiskCore.Halted targets accountId instanceId (after targets pre)
      ↔ ∃ key : FlagKey, key.Covers accountId instanceId ∧ Standing pre key
  cleared : ∀ pre key post, history = pre ++ .disengage key :: post →
    ∀ k, ActiveFlag (after targets (pre ++ [.disengage key])) k →
      ¬ k.SameTarget key
  others : ∀ pre key post, history = pre ++ .disengage key :: post →
    ∀ i v, rowAt (after targets pre) i = some v →
      ¬ (v.value.active = true ∧ v.value.key.SameTarget key) →
      rowAt (after targets (pre ++ [.disengage key])) i = some v

-- =========================================================== one command

/-- `_matches` compares the whole key. -/
theorem matches_iff {flag : RiskControlFlag} :
    «matches» key flag = true ↔ flag.key = key := by
  unfold «matches»
  rw [decide_eq_true_eq]
  constructor
  · intro ⟨htype, hscope, haccount, hinstance⟩
    obtain ⟨⟨_, _, _, _⟩, _⟩ := flag
    cases htype
    cases hscope
    cases haccount
    cases hinstance
    rfl
  · intro h
    rw [h]
    exact ⟨rfl, rfl, rfl, rfl⟩

/-- An active flag that matches is the one an engage would add. -/
theorem value_of_matches {flag : RiskControlFlag} (hactive : flag.active = true)
    (hmatch : «matches» key flag = true) : flag = ⟨key, true⟩ := by
  have hkey := matches_iff.1 hmatch
  obtain ⟨_, _⟩ := flag
  cases hkey
  cases hactive
  rfl

/-- The validation is the CHECK. -/
theorem validateScopeTarget_ok :
    validateScopeTarget key = .ok () ↔ key.ScopeMatches := by
  unfold validateScopeTarget FlagKey.ScopeMatches
  obtain ⟨_, scope, account, inst⟩ := key
  cases scope <;> cases account <;> cases inst <;> simp

/-- The transaction of an engage, statement by statement. -/
theorem engage_script (hkey : validateScopeTarget key = .ok ()) :
    (Command.engage key).script = .select fun rows =>
      if (rows.filter fun row => row.2.value.active).any
          fun row => «matches» key row.2.value then
        .commit (.done (.ok ()))
      else .insert ⟨key, true⟩ fun
        | some _ => .commit (.done (.ok ()))
        | none => .rollback (.done (.error .integrity)) := by
  unfold Command.script KillSwitch.engage
  dsimp only
  rw [hkey]
  show Sql.select _ = _
  congr 1
  funext rows
  show Sql.bind (Sql.tryCatch (Sql.bind (if _ then _ else _) _) _) _ = _
  split
  · rfl
  · show Sql.insert _ _ = _
    congr 1
    funext r
    cases r <;> rfl

/-- The transaction of a disengage after its look-up. -/
def clearing (key : FlagKey) :
    List (Nat × Versioned RiskControlFlag) → FlagSession Unit
  | [] => .commit (.done (.ok ()))
  | row :: rows =>
      if «matches» key row.2.value then
        .update row.1 row.2.version { row.2.value with active := false } fun
          | true => clearing key rows
          | false => .rollback (.done (.error .concurrentModification))
      else clearing key rows

private theorem clearMatching_script (f : Nat → Nat)
    (rows : List (Nat × Versioned RiskControlFlag)) :
    Sql.bind (Sql.tryCatch
        (Sql.bind (clearMatching key rows) fun cleared =>
          Sql.commit (.done (.ok (f cleared))))
        fun e => .rollback (.done (.error e)))
      (fun _ => (.done (.ok ()) : FlagSession Unit)) = clearing key rows := by
  induction rows generalizing f with
  | nil => rfl
  | cons row rows ih =>
      unfold clearMatching clearing
      split
      · have hrest := ih fun cleared => f (cleared + 1)
        show Sql.update _ _ _ _ = Sql.update _ _ _ _
        congr 1
        funext found
        cases found with
        | false => rfl
        | true =>
            show Sql.bind (Sql.tryCatch (Sql.bind
              (Sql.bind (clearMatching key rows) _) _) _) _ = clearing key rows
            rw [Sql.bind_assoc]
            exact hrest
      · exact ih f

/-- The transaction of a disengage, statement by statement. -/
theorem disengage_script (hkey : validateScopeTarget key = .ok ()) :
    (Command.disengage key).script = .select fun rows =>
      clearing key (rows.filter fun row => row.2.value.active) := by
  unfold Command.script KillSwitch.disengage
  dsimp only
  rw [hkey]
  show Sql.select _ = _
  congr 1
  funext rows
  exact clearMatching_script id _

/-- A row a disengage finds: cleared if it is active under the key. -/
def cleared (key : FlagKey) (v : Versioned RiskControlFlag) :
    Versioned RiskControlFlag :=
  if v.value = ⟨key, true⟩ then ⟨⟨key, false⟩, v.version + 1⟩ else v

/-- Clearing the rows of a look-up: each slot that was listed and matches
commits its clearance, the others commit what they had. -/
private theorem clearing_alone {c : Constraints RiskControlFlag}
    (rows : List (Nat × Versioned RiskControlFlag))
    (hnd : (rows.map Prod.fst).Nodup)
    (hrows : ∀ x ∈ rows, x.2.value.active = true
      ∧ table[x.1]? = some ⟨some x.2, none⟩) :
    ∃ table', (clearing key rows).alone c 0 table = some (.ok (), table')
      ∧ ∀ i : Nat, (∀ v, (i, v) ∈ rows →
          table'[i]? = some ⟨some (cleared key v), none⟩)
        ∧ ((∀ v, (i, v) ∉ rows) →
            table'[i]? = (table[i]?).map (·.commit 0)) := by
  induction rows generalizing table with
  | nil =>
      refine ⟨_, rfl, fun i => ⟨fun v h => absurd h List.not_mem_nil, fun _ => ?_⟩⟩
      exact List.getElem?_map
  | cons row rows ih =>
      obtain ⟨id, v⟩ := row
      rw [List.map_cons, List.nodup_cons] at hnd
      obtain ⟨hactive, hslot⟩ := hrows (id, v) List.mem_cons_self
      have hfresh : ∀ w, (id, w) ∉ rows := fun w hw =>
        hnd.1 (List.mem_map.2 ⟨_, hw, rfl⟩)
      unfold clearing
      split
      · rename_i hmatch
        have hvalue := value_of_matches hactive hmatch
        have hupdate : updateRow 0 id v.version
            { v.value with active := false } table
            = some (true, table.set id
              ⟨some v, some (0, ⟨⟨key, false⟩, v.version + 1⟩)⟩) := by
          unfold updateRow
          rw [hslot, hvalue]
          simp [Slot.heldFrom, Slot.seenBy]
        have hlt : id < table.length := (List.getElem?_eq_some_iff.1 hslot).1
        have hrest : ∀ x ∈ rows, x.2.value.active = true
            ∧ (table.set id ⟨some v, some (0, ⟨⟨key, false⟩,
              v.version + 1⟩)⟩)[x.1]? = some ⟨some x.2, none⟩ := by
          intro x hx
          have hne : id ≠ x.1 := fun h => hfresh x.2 (h ▸ hx)
          rw [List.getElem?_set_ne hne]
          exact hrows x (List.mem_cons_of_mem _ hx)
        obtain ⟨table', hrun, hall⟩ := ih hnd.2 hrest
        refine ⟨table', ?_, fun i => ⟨fun w hw => ?_, fun hnot => ?_⟩⟩
        · show (updateRow _ _ _ _ _).bind _ = _
          rw [hupdate]
          exact hrun
        · rcases List.mem_cons.1 hw with heq | hw
          · cases heq
            rw [(hall id).2 hfresh, List.getElem?_set_self hlt, cleared,
              if_pos hvalue]
            rfl
          · exact (hall i).1 w hw
        · have hne : id ≠ i := fun h => hnot v (h ▸ List.mem_cons_self)
          rw [(hall i).2 fun w hw => hnot w (List.mem_cons_of_mem _ hw),
            List.getElem?_set_ne hne]
      · rename_i hmatch
        obtain ⟨table', hrun, hall⟩ := ih hnd.2
          fun x hx => hrows x (List.mem_cons_of_mem _ hx)
        refine ⟨table', hrun, fun i => ⟨fun w hw => ?_, fun hnot => ?_⟩⟩
        · rcases List.mem_cons.1 hw with heq | hw
          · cases heq
            have hother : v.value ≠ ⟨key, true⟩ := fun h =>
              hmatch (matches_iff.2 (congrArg (·.key) h))
            rw [(hall id).2 hfresh, hslot, cleared, if_neg hother]
            rfl
          · exact (hall i).1 w hw
        · exact (hall i).2 fun w hw => hnot w (List.mem_cons_of_mem _ hw)

/-- A disengage on a table nobody else is writing. -/
private theorem disengage_alone {c : Constraints RiskControlFlag}
    (hkey : validateScopeTarget key = .ok ()) (hquiet : Quiet table) :
    ∃ table', (Command.disengage key).script.alone c 0 table
        = some (.ok (), table') ∧ Quiet table'
      ∧ ∀ i, rowAt table' i = (rowAt table i).map (cleared key) := by
  have hlisted : ∀ x ∈ (selectAll 0 table).filter (·.2.value.active),
      x.2.value.active = true ∧ table[x.1]? = some ⟨some x.2, none⟩ := by
    intro x hx
    obtain ⟨hmem, hactive⟩ := List.mem_filter.1 hx
    obtain ⟨⟨committed, pending⟩, hs, hseen⟩ := mem_selectAll.1 hmem
    obtain rfl : pending = none := hquiet _ (List.mem_of_getElem? hs)
    obtain rfl : committed = some x.2 := hseen
    exact ⟨hactive, hs⟩
  have hnd := (selectAll_keys_nodup 0 table).sublist
    ((List.filter_sublist (p := fun x => x.2.value.active)).map Prod.fst)
  obtain ⟨table', hrun, hall⟩ := @clearing_alone key table c _ hnd hlisted
  have hslot : ∀ i : Nat, table'[i]? = (table[i]?).map
      fun s => Slot.mk (s.committed.map (cleared key)) none := by
    intro i
    cases hs : table[i]? with
    | none =>
        have hnot : ∀ v, (i, v) ∉ (selectAll 0 table).filter
            (·.2.value.active) := by
          intro v hv
          rw [(hlisted (i, v) hv).2] at hs
          cases hs
        rw [(hall i).2 hnot, hs]
        rfl
    | some s =>
        obtain ⟨committed, pending⟩ := s
        obtain rfl : pending = none := hquiet _ (List.mem_of_getElem? hs)
        by_cases hmem : ∃ v, (i, v) ∈ (selectAll 0 table).filter
            (·.2.value.active)
        · obtain ⟨v, hv⟩ := hmem
          rw [(hlisted (i, v) hv).2] at hs
          cases hs
          exact (hall i).1 v hv
        · rw [(hall i).2 fun v hv => hmem ⟨v, hv⟩, hs]
          cases committed with
          | none => rfl
          | some v =>
              -- an unlisted row is not active, so it stays
              have hinactive : v.value ≠ ⟨key, true⟩ := by
                intro hvalue
                refine hmem ⟨v, List.mem_filter.2 ⟨mem_selectAll.2
                  ⟨_, hs, rfl⟩, ?_⟩⟩
                rw [hvalue]
              show some _ = some (Slot.mk (some (cleared key v)) none)
              rw [cleared, if_neg hinactive]
              rfl
  refine ⟨table', ?_, fun s hs => ?_, fun i => ?_⟩
  · rw [disengage_script hkey]
    exact hrun
  · obtain ⟨i, hi⟩ := List.getElem?_of_mem hs
    rw [hslot i] at hi
    obtain ⟨_, -, rfl⟩ := Option.map_eq_some_iff.1 hi
    rfl
  · unfold rowAt
    rw [hslot i]
    cases table[i]? <;> rfl

/-- An engage on a table nobody else is writing. -/
private theorem engage_alone (hvalid : (Command.engage key).Valid targets)
    (hquiet : Quiet table) :
    ∃ table', (Command.engage key).script.alone (riskControlFlags targets) 0
        table = some (.ok (), table') ∧ Quiet table'
      ∧ (ActiveFlag table key ∧ table' = table
        ∨ table' = table ++ [⟨some ⟨⟨key, true⟩, 1⟩, none⟩]) := by
  have hkey : validateScopeTarget key = .ok () := hvalid.1
  rw [engage_script hkey]
  unfold Sql.alone
  dsimp only
  split
  · rename_i hfound
    refine ⟨table, ?_, hquiet, .inl ⟨?_, rfl⟩⟩
    · show some (_, table.map _) = _
      rw [hquiet.commit]
    · obtain ⟨⟨i, v⟩, hv, hmatch⟩ := List.any_eq_true.1 hfound
      obtain ⟨hmem, hactive⟩ := List.mem_filter.1 hv
      exact ⟨i, v, hquiet.mem_selectAll.1 hmem,
        value_of_matches hactive hmatch⟩
  · refine ⟨table ++ [⟨some ⟨⟨key, true⟩, 1⟩, none⟩], ?_, ?_, .inr rfl⟩
    · have hinsert : insertRow (riskControlFlags targets) 0 ⟨key, true⟩ table
          = some (some table.length,
              table ++ [⟨none, some (0, ⟨⟨key, true⟩, 1⟩)⟩]) := by
        unfold insertRow
        rw [if_neg, if_neg]
        · intro ⟨_, _, _, _, hclash⟩
          exact hclash
        · intro h
          rcases h with hrefused | ⟨_, _, _, _, hclash⟩
          · exact hrefused ⟨validateScopeTarget_ok.1 hkey, hvalid.2⟩
          · exact hclash
      unfold Sql.alone
      rw [hinsert]
      show some (_, (table ++ _).map _) = _
      rw [List.map_append, hquiet.commit]
      rfl
    · intro s hs
      rcases List.mem_append.1 hs with hs | hs
      · exact hquiet s hs
      · rw [List.mem_singleton.1 hs]

-- =========================================================== the history

theorem after_snoc (history : List Command) (command : Command) :
    after targets (history ++ [command])
      = match command.script.alone (riskControlFlags targets) 0
          (after targets history) with
        | some (_, table') => table'
        | none => after targets history := by
  unfold after
  rw [List.foldl_append]
  rfl

/-- The flags active after a disengage: all but its own. -/
theorem activeFlag_cleared {table' : List (Slot RiskControlFlag)}
    (h : ∀ i, rowAt table' i = (rowAt table i).map (cleared key)) :
    ActiveFlag table' k ↔ ActiveFlag table k ∧ k ≠ key := by
  constructor
  · intro ⟨i, v, hv, hvalue⟩
    rw [h i] at hv
    obtain ⟨w, hw, rfl⟩ := Option.map_eq_some_iff.1 hv
    by_cases hown : w.value = ⟨key, true⟩
    · rw [cleared, if_pos hown] at hvalue
      cases hvalue
    · rw [cleared, if_neg hown] at hvalue
      refine ⟨⟨i, w, hw, hvalue⟩, fun hk => hown ?_⟩
      rw [hvalue, hk]
  · intro ⟨⟨i, v, hv, hvalue⟩, hne⟩
    refine ⟨i, v, ?_, hvalue⟩
    have hother : v.value ≠ ⟨key, true⟩ := by
      rw [hvalue]
      exact fun h => hne (congrArg (·.key) h)
    rw [h i, hv, Option.map_some, cleared, if_neg hother]

/-- The flags active after a new one is added. -/
theorem activeFlag_added :
    ActiveFlag (table ++ [⟨some ⟨⟨key, true⟩, 1⟩, none⟩]) k
      ↔ k = key ∨ ActiveFlag table k := by
  unfold ActiveFlag rowAt
  constructor
  · intro ⟨i, v, hv, hvalue⟩
    rw [List.getElem?_append] at hv
    split at hv
    · exact .inr ⟨i, v, hv, hvalue⟩
    · left
      cases hi : i - table.length with
      | zero =>
          rw [hi] at hv
          cases hv
          exact (congrArg (·.key) hvalue).symm
      | succ n =>
          rw [hi] at hv
          cases hv
  · intro h
    rcases h with rfl | ⟨i, v, hv, hvalue⟩
    · exact ⟨table.length, ⟨⟨k, true⟩, 1⟩, by simp, rfl⟩
    · refine ⟨i, v, ?_, hvalue⟩
      have hlt : i < table.length := by
        by_contra hge
        rw [List.getElem?_eq_none (Nat.le_of_not_lt hge)] at hv
        cases hv
      rw [List.getElem?_append_left hlt]
      exact hv

/-- After a history nobody is writing, and a key is active exactly if it
was engaged and not since disengaged by the same key. -/
theorem active_after {history : List Command}
    (hvalid : ∀ command ∈ history, command.Valid targets) :
    Quiet (after targets history)
      ∧ ∀ k, ActiveFlag (after targets history) k
        ↔ StandingExactly history k := by
  induction history using List.reverseRecOn with
  | nil =>
      refine ⟨fun s hs => absurd hs List.not_mem_nil, fun k => ⟨?_, ?_⟩⟩
      · intro ⟨i, v, hv, _⟩
        cases hv
      · exact fun h => absurd h since_nil
  | append_singleton history command ih =>
      obtain ⟨hquiet, hactive⟩ := ih fun c hc =>
        hvalid c (List.mem_append_left _ hc)
      have hlast := hvalid command (by simp)
      cases command with
      | engage key =>
          obtain ⟨table', hrun, hquiet', heffect⟩ := engage_alone hlast hquiet
          rw [after_snoc, hrun]
          refine ⟨hquiet', fun k => ?_⟩
          rw [StandingExactly, since_snoc, ← StandingExactly, ← hactive k]
          dsimp only
          have hsame : (Command.engage key = .engage k) ↔ k = key :=
            ⟨fun h => by cases h; rfl, fun h => by rw [h]⟩
          rw [hsame]
          rcases heffect with ⟨hpresent, rfl⟩ | rfl
          · constructor
            · exact fun h => .inr ⟨h, nofun⟩
            · intro h
              rcases h with rfl | ⟨h, _⟩
              · exact hpresent
              · exact h
          · rw [activeFlag_added]
            constructor
            · exact fun h => h.imp_right fun h => ⟨h, nofun⟩
            · exact fun h => h.imp_right fun h => h.1
      | disengage key =>
          have hkey : validateScopeTarget key = .ok () := hlast.1
          obtain ⟨table', hrun, hquiet', hrows⟩ := disengage_alone hkey hquiet
          rw [after_snoc, hrun]
          refine ⟨hquiet', fun k => ?_⟩
          rw [StandingExactly, since_snoc, ← StandingExactly, ← hactive k]
          dsimp only
          rw [activeFlag_cleared hrows]
          constructor
          · exact fun ⟨h, hne⟩ => .inr ⟨h, fun heq => hne (by cases heq; rfl)⟩
          · intro h
            rcases h with h | ⟨h, hne⟩
            · cases h
            · exact ⟨h, fun heq => hne (by rw [heq])⟩

/-- The rows after a disengage. -/
theorem rowAt_disengage {history : List Command}
    (hvalid : ∀ command ∈ history ++ [.disengage key],
      command.Valid targets) (i : Nat) :
    rowAt (after targets (history ++ [.disengage key])) i
      = (rowAt (after targets history) i).map (cleared key) := by
  have hquiet := (active_after fun c hc =>
    hvalid c (List.mem_append_left _ hc)).1
  have hkey : validateScopeTarget key = .ok () :=
    (hvalid (.disengage key) (by simp)).1
  obtain ⟨table', hrun, -, hrows⟩ := disengage_alone hkey hquiet
  rw [after_snoc, hrun]
  exact hrows i

theorem relevantTo_iff {accountId instanceId : Nat} :
    RiskControlFlagRepository.relevantTo accountId instanceId key = true
      ↔ key.Covers accountId instanceId := by
  unfold RiskControlFlagRepository.relevantTo FlagKey.Covers
  cases key.scope <;> simp

/-- `is_halted` is whether some active flag covers the instance. -/
theorem halted_iff {accountId instanceId : Nat} (hquiet : Quiet table) :
    RiskCore.Halted targets accountId instanceId table
      ↔ ∃ key : FlagKey, key.Covers accountId instanceId
          ∧ ActiveFlag table key := by
  have hrun : (RiskCore.isHalted accountId instanceId).alone
      (riskControlFlags targets) 0 table
      = some (.ok (!((selectAll 0 table).filter fun row =>
          row.2.value.active && RiskControlFlagRepository.relevantTo
            accountId instanceId row.2.value.key).isEmpty), table) := rfl
  unfold RiskCore.Halted
  rw [hrun]
  constructor
  · intro h
    have hne : ((selectAll 0 table).filter fun row =>
        row.2.value.active && RiskControlFlagRepository.relevantTo
          accountId instanceId row.2.value.key).isEmpty = false := by
      simpa using h
    rw [List.isEmpty_eq_false_iff_exists_mem] at hne
    obtain ⟨⟨i, v⟩, hmem⟩ := hne
    obtain ⟨hseen, hflag⟩ := List.mem_filter.1 hmem
    obtain ⟨hactive, hcovers⟩ := Bool.and_eq_true_iff.1 hflag
    refine ⟨v.value.key, relevantTo_iff.1 hcovers, i, v,
      hquiet.mem_selectAll.1 hseen, ?_⟩
    exact value_of_matches hactive (matches_iff.2 rfl)
  · intro ⟨key, hcovers, i, v, hv, hvalue⟩
    have hmem : (i, v) ∈ (selectAll 0 table).filter fun row =>
        row.2.value.active && RiskControlFlagRepository.relevantTo
          accountId instanceId row.2.value.key := by
      refine List.mem_filter.2 ⟨hquiet.mem_selectAll.2 hv, ?_⟩
      rw [hvalue]
      exact Bool.and_eq_true_iff.2 ⟨rfl, relevantTo_iff.2 hcovers⟩
    rw [List.isEmpty_eq_false_iff_exists_mem.2 ⟨_, hmem⟩]
    rfl

/-- The history means what it says exactly if no instance is disengaged
while a flag engaged for the same target with another key stands. -/
theorem keepsHistory_iff {history : List Command}
    (hvalid : ∀ command ∈ history, command.Valid targets) :
    KeepsHistory targets history
      ↔ ∀ pre key post, history = pre ++ .disengage key :: post →
          ∀ k : FlagKey, k.SameTarget key → StandingExactly pre k →
            k = key := by
  constructor
  · intro h pre key post hsplit k hsame hstands
    by_contra hne
    have hupto : ∀ command ∈ pre ++ [.disengage key],
        command.Valid targets := by
      intro command hcommand
      refine hvalid command ?_
      rw [hsplit, List.append_cons]
      exact List.mem_append_left _ hcommand
    have hactive := ((active_after hupto).2 k).2
      (since_snoc.2 (.inr ⟨hstands, fun heq => hne (by cases heq; rfl)⟩))
    exact h.cleared pre key post hsplit k hactive hsame
  · intro h
    have hstands : ∀ pre, pre <+: history → ∀ k,
        Standing pre k ↔ StandingExactly pre k := by
      intro pre ⟨rest, hpre⟩ k
      constructor
      · exact fun hs => hs.mono fun c hc => ⟨k, hc, .refl k⟩
      · intro ⟨a, e, b, hab, he, hquiet⟩
        refine ⟨a, e, b, hab, he, fun c hc ⟨k', hk', hsame⟩ => ?_⟩
        subst hk'
        obtain ⟨b₁, b₂, rfl⟩ := List.append_of_mem hc
        have hsplit : history
            = (a ++ e :: b₁) ++ .disengage k' :: (b₂ ++ rest) := by
          rw [← hpre, hab]
          simp
        obtain rfl := h _ k' _ hsplit k hsame.symm ⟨a, e, b₁, rfl, he,
          fun c hc => hquiet c (List.mem_append_left _ hc)⟩
        exact hquiet _ hc rfl
    have hfirst : ∀ pre, pre <+: history → ∀ command ∈ pre,
        command.Valid targets := fun pre hpre command hmem =>
      hvalid command (hpre.subset hmem)
    refine ⟨fun pre hpre accountId instanceId => ?_,
      fun pre key post hsplit k hactive hsame => ?_,
      fun pre key post hsplit i v hv hother => ?_⟩
    · obtain ⟨hquiet, hactive⟩ := active_after (hfirst pre hpre)
      rw [halted_iff hquiet]
      refine exists_congr fun key => and_congr_right fun _ => ?_
      exact (hactive key).trans (hstands pre hpre key).symm
    · have hpre : pre ++ [.disengage key] <+: history :=
        ⟨post, by rw [hsplit]; simp⟩
      have hstanding := ((active_after (hfirst _ hpre)).2 k).1 hactive
      rcases since_snoc.1 hstanding with heq | ⟨hbefore, hne⟩
      · cases heq
      · exact hne (by rw [h pre key post hsplit k hsame hbefore])
    · have hpre : pre ++ [.disengage key] <+: history :=
        ⟨post, by rw [hsplit]; simp⟩
      have hvalue : v.value ≠ ⟨key, true⟩ := by
        intro hvalue
        rw [hvalue] at hother
        exact hother ⟨rfl, .refl key⟩
      rw [rowAt_disengage (hfirst _ hpre), hv, Option.map_some, cleared,
        if_neg hvalue]

/-- An instance halted with its account named, and released without. -/
theorem release_without_account :
    ¬ ∀ (targets : Targets) (history : List Command),
      (∀ command ∈ history, command.Valid targets) →
        KeepsHistory targets history := by
  intro h
  have hkeeps := h ⟨[7], [3]⟩
    [.engage ⟨.killSwitch, .strategyInstance, some 7, some 3⟩,
      .disengage ⟨.killSwitch, .strategyInstance, none, some 3⟩]
    (by unfold Command.Valid Targets.Has; decide)
  obtain ⟨k, -, hstands⟩ := (hkeeps.halted _ (List.prefix_refl _) 7 3).1
    (by unfold RiskCore.Halted; decide)
  -- the release names the instance, so nothing stands
  rcases (@since_snoc _ _ _ [_] _).1 hstands with heq | ⟨hbefore, hne⟩
  · cases heq
  · rcases (@since_snoc _ _ _ [] _).1 hbefore with heq | ⟨hnone, -⟩
    · cases heq
      exact hne ⟨_, rfl, rfl, rfl, rfl⟩
    · exact since_nil hnone

/-- An account halted, an instance halted and released as it was. -/
theorem keepsHistory_sample :
    KeepsHistory ⟨[7], [3]⟩
      [.engage ⟨.killSwitch, .account, some 7, none⟩,
        .engage ⟨.freeze, .strategyInstance, some 7, some 3⟩,
        .disengage ⟨.freeze, .strategyInstance, some 7, some 3⟩] := by
  refine (keepsHistory_iff
    (by unfold Command.Valid Targets.Has; decide)).2 ?_
  intro pre key post hsplit k hsame hstands
  obtain ⟨rfl, rfl⟩ : pre = [.engage ⟨.killSwitch, .account, some 7, none⟩,
        .engage ⟨.freeze, .strategyInstance, some 7, some 3⟩]
      ∧ key = ⟨.freeze, .strategyInstance, some 7, some 3⟩ := by
    match pre, hsplit with
    | [], h => cases h
    | [_], h => cases h
    | [_, _], h => cases h; exact ⟨rfl, rfl⟩
    | _ :: _ :: _ :: _, h =>
        have hlen := congrArg List.length h
        simp at hlen
  obtain ⟨a, e, b, hab, rfl, -⟩ := hstands
  have hmem : Command.engage k ∈ a ++ .engage k :: b := by simp
  rw [← hab] at hmem
  rcases List.mem_cons.1 hmem with heq | hmem
  · cases heq
    cases hsame.1
  · cases List.mem_singleton.1 hmem
    rfl

end KillSwitch

end AlgoPlatform
