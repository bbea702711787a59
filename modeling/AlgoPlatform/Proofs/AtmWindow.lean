/-
The strike windows, kept by diffs, are the windows built from scratch.

The ATM strike is the multiple of the interval in the half-open interval
of that length around spot (`atm_within`): so it is a nearest one, a tie
goes to the higher, and it grows with spot. A window's tokens are those the
chain lists around it (`mem_targetWindow`), and the diff of one
`recompute` takes the tokens before to the tokens after
(`recompute_cases`), whatever came before: a window's keys are unique in
every run (`tidy_run`).
-/
import Mathlib.Tactic.FieldSimp
import Mathlib.Tactic.Linarith
import Mathlib.Tactic.Ring
import AlgoPlatform.Model.AtmWindow

open Basis

namespace AlgoPlatform

-- ======================================================= the ATM strike

variable {spot interval atm : ℚ}

/-- What is computed is the multiple of the interval that lies less than
half of it below spot or at most half of it above. -/
theorem atm_within (h : computeAtmStrike spot interval = .ok atm) :
    0 < interval ∧ (∃ z : ℤ, atm = z * interval)
      ∧ spot - interval / 2 < atm ∧ atm ≤ spot + interval / 2 := by
  unfold computeAtmStrike at h
  split at h
  · cases h
  · split at h
    · cases h
    · rename_i hspot hinterval
      have hspot : 0 < spot := not_le.mp hspot
      have hinterval : 0 < interval := not_le.mp hinterval
      cases h
      have hquotient : 0 ≤ spot / interval := (div_pos hspot hinterval).le
      unfold quantizeHalfUp
      rw [if_pos hquotient]
      have hback : spot / interval * interval = spot :=
        div_mul_cancel₀ _ hinterval.ne'
      have hbelow := mul_le_mul_of_nonneg_right
        (Int.floor_le (spot / interval + 1 / 2)) hinterval.le
      have habove := mul_lt_mul_of_pos_right
        (Int.lt_floor_add_one (spot / interval + 1 / 2)) hinterval
      refine ⟨hinterval, ⟨_, rfl⟩, ?_, ?_⟩ <;> linarith

/-- It is computed for every positive spot and interval. -/
theorem atm_computed (hspot : 0 < spot) (hinterval : 0 < interval) :
    ∃ atm, computeAtmStrike spot interval = .ok atm := by
  unfold computeAtmStrike
  rw [if_neg (not_le.mpr hspot), if_neg (not_le.mpr hinterval)]
  exact ⟨_, rfl⟩

/-- No two multiples lie within one interval of that length. -/
private theorem multiple_le {a b : ℤ} (hinterval : 0 < interval)
    (h : (a : ℚ) * interval < b * interval + interval) : a ≤ b := by
  have hlt : (a : ℚ) < b + 1 := by
    refine lt_of_mul_lt_mul_right ?_ hinterval.le
    rw [add_mul, one_mul]
    exact h
  exact Int.lt_add_one_iff.mp (by exact_mod_cast hlt)

/-- The nearest multiple, and of two equally near the higher. -/
theorem atm_nearest (h : computeAtmStrike spot interval = .ok atm) :
    |atm - spot| ≤ interval / 2
      ∧ ∀ z : ℤ, |z * interval - spot| ≤ |atm - spot| →
        z * interval ≤ atm := by
  obtain ⟨hinterval, ⟨m, rfl⟩, hlow, hhigh⟩ := atm_within h
  have hdistance : |m * interval - spot| ≤ interval / 2 :=
    abs_le.mpr ⟨by linarith, by linarith⟩
  refine ⟨hdistance, fun z hz => ?_⟩
  have hz := (le_abs_self _).trans (hz.trans hdistance)
  have hle : z ≤ m := multiple_le hinterval (by linarith)
  exact mul_le_mul_of_nonneg_right (by exact_mod_cast hle) hinterval.le

/-- A higher spot has no lower ATM strike. -/
theorem atm_mono {spot' atm' : ℚ}
    (h : computeAtmStrike spot interval = .ok atm)
    (h' : computeAtmStrike spot' interval = .ok atm') (hle : spot ≤ spot') :
    atm ≤ atm' := by
  obtain ⟨hinterval, ⟨m, rfl⟩, -, hhigh⟩ := atm_within h
  obtain ⟨-, ⟨m', rfl⟩, hlow', -⟩ := atm_within h'
  have hle : m ≤ m' := multiple_le hinterval (by linarith)
  exact mul_le_mul_of_nonneg_right (by exact_mod_cast hle) hinterval.le

-- =========================================================== the window

variable {n : Nat} {spec : InstrumentSpec} {underlying : String}
  {expiry : Date} {chain : OptionChain}

/-- The chain lists the token at one of the strikes around the money. -/
def ListedAround (n : Nat) (spec : InstrumentSpec) (atm : ℚ)
    (chain : OptionChain) (token : Nat) : Prop :=
  ∃ k : ℤ, |k| ≤ n ∧ ∃ opt symbol,
    chain (atm + spec.strikeInterval * k) opt = some (symbol, token)

theorem mem_strikeOffsets {k : ℤ} : k ∈ strikeOffsets n ↔ |k| ≤ n := by
  unfold strikeOffsets
  rw [List.mem_map, abs_le]
  constructor
  · intro ⟨i, hi, hk⟩
    rw [List.mem_range] at hi
    omega
  · intro ⟨hlow, hhigh⟩
    refine ⟨(k + n).toNat, ?_, ?_⟩
    · rw [List.mem_range]
      omega
    · omega

theorem addLeg_nodup {strike : ℚ} {target : Dict Nat InstrumentRef}
    (h : target.keys.Nodup) (opt : OptionType) :
    (addLeg spec underlying expiry chain strike target opt).keys.Nodup := by
  unfold addLeg
  split
  · exact h
  · exact Dict.nodup_keys_put h ..

theorem mem_addLeg {strike : ℚ} {target : Dict Nat InstrumentRef}
    {opt : OptionType} {token : Nat} :
    token ∈ (addLeg spec underlying expiry chain strike target opt).keys
      ↔ token ∈ target.keys
        ∨ ∃ symbol, chain strike opt = some (symbol, token) := by
  unfold addLeg
  cases hleg : chain strike opt with
  | none => simp
  | some leg =>
      obtain ⟨symbol, t⟩ := leg
      rw [Dict.mem_keys_put, or_comm]
      simp [eq_comm]

/-- Both legs of a strike. -/
private theorem mem_addLegs {strike : ℚ} {target : Dict Nat InstrumentRef}
    {token : Nat} :
    token ∈ ([OptionType.ce, OptionType.pe].foldl
        (addLeg spec underlying expiry chain strike) target).keys
      ↔ token ∈ target.keys
        ∨ ∃ opt symbol, chain strike opt = some (symbol, token) := by
  rw [List.foldl_cons, List.foldl_cons, List.foldl_nil, mem_addLeg,
    mem_addLeg, or_assoc]
  refine or_congr_right ⟨fun h => ?_, fun ⟨opt, hopt⟩ => ?_⟩
  · rcases h with h | h
    · exact ⟨.ce, h⟩
    · exact ⟨.pe, h⟩
  · cases opt with
    | ce => exact Or.inl hopt
    | pe => exact Or.inr hopt

/-- A window holds each token once. -/
theorem targetWindow_nodup :
    (targetWindow n spec underlying atm expiry chain).keys.Nodup := by
  unfold targetWindow
  refine List.foldlRecOn (motive := fun target : Dict Nat InstrumentRef =>
    target.keys.Nodup) _ _ List.nodup_nil fun target h k _ => ?_
  exact addLeg_nodup (addLeg_nodup h _) _

/-- A window holds the tokens listed around the money. -/
theorem mem_targetWindow {token : Nat} :
    token ∈ (targetWindow n spec underlying atm expiry chain).keys
      ↔ ListedAround n spec atm chain token := by
  have hfold : ∀ (offsets : List Int) (target : Dict Nat InstrumentRef),
      token ∈ (offsets.foldl (fun target (k : Int) =>
        [OptionType.ce, OptionType.pe].foldl
          (addLeg spec underlying expiry chain
            (atm + spec.strikeInterval * k)) target) target).keys
        ↔ token ∈ target.keys ∨ ∃ k ∈ offsets, ∃ opt symbol,
          chain (atm + spec.strikeInterval * k) opt
            = some (symbol, token) := by
    intro offsets
    induction offsets with
    | nil => simp
    | cons k offsets ih =>
        intro target
        rw [List.foldl_cons, ih, mem_addLegs, or_assoc]
        simp only [List.mem_cons, exists_eq_or_imp]
  unfold targetWindow ListedAround
  rw [hfold]
  simp only [mem_strikeOffsets]
  exact or_iff_right (by simp [Dict.keys])

-- ============================================================ recompute

namespace AtmWindowManager

variable {m m' : AtmWindowManager} {answers : WindowAnswers}
  {diff : WindowDiff}

/-- What a `recompute` that returns has read, returned and committed. -/
theorem recompute_cases
    (h : m.recompute n underlying answers = .ok (diff, m')) :
    ∃ spec spot atm expiry chain,
      answers = ⟨.ok spec, .ok spot, .ok expiry, .ok chain⟩
        ∧ computeAtmStrike spot spec.strikeInterval = .ok atm
        ∧ diff.atm = atm
        ∧ diff.toSubscribe
          = (targetWindow n spec underlying atm expiry chain).keys.filter
              (· ∉ (m.window underlying).keys)
        ∧ diff.toUnsubscribe
          = (m.window underlying).keys.filter
              (· ∉ (targetWindow n spec underlying atm expiry chain).keys)
        ∧ diff.newInstruments = diff.toSubscribe.filterMap
            (targetWindow n spec underlying atm expiry chain).get
        ∧ m' = { current := m.current.put underlying
                  (targetWindow n spec underlying atm expiry chain)
                 atm := m.atm.put underlying atm } := by
  obtain ⟨spec, spot, expiry, chain⟩ := answers
  unfold recompute at h
  cases spec with
  | error e => cases h
  | ok spec =>
      cases spot with
      | error e => cases h
      | ok spot =>
          change ((computeAtmStrike spot spec.strikeInterval).mapError
            WindowError.strikeSelection >>= _) = _ at h
          cases hatm : computeAtmStrike spot spec.strikeInterval with
          | error e =>
              rw [hatm] at h
              cases h
          | ok atm =>
              rw [hatm] at h
              cases expiry with
              | error e => cases h
              | ok expiry =>
                  cases chain with
                  | error e => cases h
                  | ok chain =>
                      cases h
                      exact ⟨spec, spot, atm, expiry, chain, rfl, hatm, rfl,
                        rfl, rfl, rfl, rfl⟩

/-- It returns whenever its sources answer and the spot is positive. -/
theorem recompute_returns {spot : ℚ} (hspot : 0 < spot)
    (hanswers : answers = ⟨.ok spec, .ok spot, .ok expiry, .ok chain⟩) :
    ∃ diff m', m.recompute n underlying answers = .ok (diff, m') := by
  obtain ⟨atm, hatm⟩ := atm_computed hspot spec.interval_pos
  subst hanswers
  unfold recompute
  change ∃ diff m', ((computeAtmStrike spot spec.strikeInterval).mapError
    WindowError.strikeSelection >>= _) = .ok (diff, m')
  rw [hatm]
  exact ⟨_, _, rfl⟩

theorem window_put {current : Dict Nat InstrumentRef} (u : String) :
    window { current := m.current.put underlying current
             atm := m.atm.put underlying atm } u
      = if u = underlying then current else m.window u := by
  unfold window
  dsimp only
  rw [Dict.get_put]
  split <;> rfl

/-- Every window holds each of its tokens once. -/
def Tidy (m : AtmWindowManager) : Prop :=
  ∀ underlying, (m.window underlying).keys.Nodup

theorem Tidy.step (h : Tidy m) (event : Event) : Tidy (m.step n event) := by
  cases event with
  | reset => exact fun _ => List.nodup_nil
  | recompute underlying answers =>
      unfold AtmWindowManager.step
      dsimp only
      split
      · rename_i diff m' hreturned
        obtain ⟨spec, spot, atm, expiry, chain, -, -, -, -, -, -, hm⟩ :=
          recompute_cases hreturned
        intro u
        rw [hm, window_put]
        split
        · exact targetWindow_nodup
        · exact h u
      · exact h

theorem tidy_run (n : Nat) (events : List Event) : Tidy (run n {} events) := by
  have hrun : ∀ (m : AtmWindowManager) (events : List Event),
      Tidy m → Tidy (m.run n events) := by
    intro m events
    induction events generalizing m with
    | nil => exact id
    | cons event events ih => exact fun h => ih _ (h.step event)
  exact hrun {} events fun _ => List.nodup_nil

/-- The strike of a tie is the higher one. -/
example : computeAtmStrike 125 50 = .ok 150 := by decide +kernel

/-- After any events, a `recompute` that returns: its lists are disjoint
and hold no token twice; applied to the window before they give the
tokens listed around the money, which is the window after; the other
windows stay; and the money is the nearest multiple of the interval, the
higher of two, and no lower for a higher spot. -/
theorem recompute_exact (n : Nat) (events : List Event)
    (underlying : String) (answers : WindowAnswers) (diff : WindowDiff)
    (m' : AtmWindowManager)
    (h : (run n {} events).recompute n underlying answers
      = .ok (diff, m')) :
    ∃ spec spot expiry chain,
      answers = ⟨.ok spec, .ok spot, .ok expiry, .ok chain⟩
      ∧ computeAtmStrike spot spec.strikeInterval = .ok diff.atm
      ∧ diff.toSubscribe.Nodup ∧ diff.toUnsubscribe.Nodup
      ∧ diff.toSubscribe.Disjoint diff.toUnsubscribe
      ∧ (∀ token,
        (token ∈ ((run n {} events).window underlying).keys
            ∧ token ∉ diff.toUnsubscribe)
          ∨ token ∈ diff.toSubscribe
        ↔ ListedAround n spec diff.atm chain token)
      ∧ (∀ token, token ∈ (m'.window underlying).keys
        ↔ ListedAround n spec diff.atm chain token)
      ∧ (∀ other, other ≠ underlying →
        m'.window other = (run n {} events).window other)
      ∧ (∃ z : ℤ, diff.atm = z * spec.strikeInterval)
      ∧ |diff.atm - spot| ≤ spec.strikeInterval / 2
      ∧ (∀ z : ℤ,
        |z * spec.strikeInterval - spot| ≤ |diff.atm - spot| →
          z * spec.strikeInterval ≤ diff.atm)
      ∧ ∀ spot' atm', computeAtmStrike spot' spec.strikeInterval = .ok atm' →
        spot ≤ spot' → diff.atm ≤ atm' := by
  obtain ⟨spec, spot, atm, expiry, chain, hanswers, hatm, hdiff, hsubscribe,
    hunsubscribe, -, hm⟩ := recompute_cases h
  subst hdiff
  obtain ⟨-, hmultiple, -⟩ := atm_within hatm
  obtain ⟨hdistance, hties⟩ := atm_nearest hatm
  refine ⟨spec, spot, expiry, chain, hanswers, hatm, ?_, ?_, ?_, ?_, ?_, ?_,
    hmultiple, hdistance, hties, fun _ _ hatm' hle => atm_mono hatm hatm' hle⟩
  · rw [hsubscribe]
    exact targetWindow_nodup.filter _
  · rw [hunsubscribe]
    exact (tidy_run n events underlying).filter _
  · intro token hin hout
    rw [hsubscribe, List.mem_filter] at hin
    rw [hunsubscribe, List.mem_filter] at hout
    simp [hin.1] at hout
  · intro token
    have htarget : token ∈ (targetWindow n spec underlying diff.atm expiry
        chain).keys ↔ ListedAround n spec diff.atm chain token :=
      mem_targetWindow
    rw [← htarget, hsubscribe, hunsubscribe, List.mem_filter,
      List.mem_filter]
    simp only [decide_eq_true_eq]
    tauto
  · intro token
    rw [hm, window_put, if_pos rfl]
    exact mem_targetWindow
  · intro other hother
    rw [hm, window_put, if_neg hother]

/-- A chain with a hole: no put at 150. -/
def holedChain : OptionChain := fun strike opt =>
  if strike = 100 ∧ opt = .ce then some ("C100", 1)
  else if strike = 100 ∧ opt = .pe then some ("P100", 2)
  else if strike = 150 ∧ opt = .ce then some ("C150", 3)
  else none

def holedAnswers (spot : ℚ) : WindowAnswers :=
  { spec := .ok ⟨.nfo, 50, by decide⟩
    spot := .ok spot
    expiry := .ok { year := 2026, month := 1, day := 29 }
    chain := .ok holedChain }

/-- Spot at a tie between 100 and 150, after a window around 100. -/
theorem recompute_exact_holed : ∃ diff m',
    (run 1 {} [.recompute "NIFTY" (holedAnswers 110)]).recompute 1 "NIFTY"
        (holedAnswers 125) = .ok (diff, m')
      ∧ diff.toSubscribe.Disjoint diff.toUnsubscribe := by
  obtain ⟨diff, m', h⟩ : ∃ diff m',
      (run 1 {} [.recompute "NIFTY" (holedAnswers 110)]).recompute 1 "NIFTY"
        (holedAnswers 125) = .ok (diff, m') :=
    recompute_returns (show (0 : ℚ) < 125 by decide) rfl
  obtain ⟨_, _, _, _, _, _, _, _, hdisjoint, _⟩ :=
    recompute_exact 1 [.recompute "NIFTY" (holedAnswers 110)] "NIFTY"
      (holedAnswers 125) diff m' h
  exact ⟨diff, m', h, hdisjoint⟩

end AtmWindowManager

end AlgoPlatform
