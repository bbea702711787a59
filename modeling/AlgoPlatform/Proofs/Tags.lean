/-
Broker tags and idempotency keys.

# The law

A tag is a letter, the instance id, six digits of the day and the leg; a
key spells the same out with the whole day. Neither `-` nor `:` occurs in
a part, so both can be taken apart again: within a century they name the
instance, the day, the leg and the purpose, and one names what the other
does (`tags_injective`).

# Too long a tag

The durable record validates its tags before it commits. An entry whose
tag is too long leaves no row, and raises unless one of its gates turns
it away first.
-/
import AlgoPlatform.Basis.Joined
import AlgoPlatform.Model.Runs
import AlgoPlatform.Proofs.Frames

open Basis Basis.Session

namespace AlgoPlatform

-- =============================================== statement vocabulary

/-- What a leg's tag is for. -/
inductive TagPurpose
  | entry | exit | unwind
  deriving DecidableEq, Repr

namespace TagPurpose

variable (ctx : StrategyContext) (optionType : OptionType)

/-- The tag's text, before it is validated. -/
def text : TagPurpose → String
  | .entry => entryTag ctx optionType
  | .exit => exitTag ctx optionType
  | .unwind => unwindTag ctx optionType

/-- `EntryLogic._broker_tag`, `ExitLogic._broker_tag`,
`EntryLogic._unwind_tag`. -/
def brokerTag (purpose : TagPurpose) : Except Exc String :=
  validateTag (purpose.text ctx optionType)

/-- The key each of them is stored beside. -/
def key : TagPurpose → String
  | .entry => idempotencyKey ctx optionType .entry []
  | .exit => idempotencyKey ctx optionType .exit []
  | .unwind => idempotencyKey ctx optionType .exit ["UNWIND"]

end TagPurpose

/-- The same instance, day, leg and purpose. -/
structure SameLeg (ctx ctx' : StrategyContext) (type type' : OptionType)
    (purpose purpose' : TagPurpose) : Prop where
  instanceId : ctx.instanceId = ctx'.instanceId
  today : ctx.today = ctx'.today
  optionType : type = type'
  purpose : purpose = purpose'

/-- No position, trade or intent was committed. -/
structure NothingRecorded (r r' : Rows) : Prop where
  positions : r'.positions = r.positions
  trades : r'.trades = r.trades
  intents : r'.intents = r.intents

-- ================================================================ dates

theorem length_twoDigits {n : Nat} (h : n < 100) :
    (twoDigits n).length = 2 := by
  have hpos : 0 < (toString n).length := by
    rw [← String.length_toList, Nat.toString_eq_repr, Nat.toList_repr]
    exact Nat.length_toDigits_pos
  unfold twoDigits
  split_ifs with hsmall
  · have hone := (length_toString_le_iff (Nat.zero_lt_one)).2 (by omega : n < 10 ^ 1)
    rw [String.length_append]
    show 1 + _ = 2
    omega
  · have hone := (length_toString_le_iff Nat.zero_lt_one).not.2
      (by omega : ¬ n < 10 ^ 1)
    have htwo := (length_toString_le_iff Nat.zero_lt_two).2 (by omega : n < 10 ^ 2)
    omega

/-- Two digits show their number. -/
theorem shown_twoDigits (n : Nat) : shown (twoDigits n) = n := by
  unfold twoDigits
  split_ifs
  · exact shown_zero_append n
  · exact shown_toString n

theorem twoDigits_inj {m n : Nat} (h : twoDigits m = twoDigits n) : m = n := by
  rw [← shown_twoDigits m, h, shown_twoDigits]

theorem isDigit_of_mem_twoDigits {n : Nat} {c : Char}
    (h : c ∈ (twoDigits n).toList) : c.isDigit = true := by
  unfold twoDigits at h
  split_ifs at h
  · rw [String.toList_append, List.mem_append] at h
    rcases h with h | h
    · rw [List.mem_singleton.1 h]
      rfl
    · exact isDigit_of_mem_toString h
  · exact isDigit_of_mem_toString h

theorem Date.length_yymmdd (d : Date) : d.yymmdd.length = 6 := by
  obtain ⟨-, ⟨-, hmonth⟩, -, hday⟩ := d.valid
  unfold Date.yymmdd
  rw [String.length_append, String.length_append,
    length_twoDigits (Nat.mod_lt _ (by omega)), length_twoDigits (by omega),
    length_twoDigits (by omega)]

theorem Date.ext_parts {d d' : Date} (hyear : d.year = d'.year)
    (hmonth : d.month = d'.month) (hday : d.day = d'.day) : d = d' := by
  cases d
  cases d'
  cases hyear
  cases hmonth
  cases hday
  rfl

/-- The last six digits of a day tell it from the other days of its
century. -/
theorem Date.yymmdd_inj {d d' : Date} (hpast : d.year < d'.year + 100)
    (hfuture : d'.year < d.year + 100) (h : d.yymmdd = d'.yymmdd) :
    d = d' := by
  obtain ⟨-, ⟨-, hmonth⟩, -⟩ := d.valid
  obtain ⟨-, ⟨-, hmonth'⟩, -⟩ := d'.valid
  have hyy : (d.year % 100) < 100 ∧ (d'.year % 100) < 100 :=
    ⟨Nat.mod_lt _ (by omega), Nat.mod_lt _ (by omega)⟩
  unfold Date.yymmdd at h
  have hhead : (twoDigits (d.year % 100) ++ twoDigits d.month).length
      = (twoDigits (d'.year % 100) ++ twoDigits d'.month).length := by
    rw [String.length_append, String.length_append, length_twoDigits hyy.1,
      length_twoDigits hyy.2, length_twoDigits (by omega),
      length_twoDigits (by omega)]
  obtain ⟨hfront, hday⟩ := append_inj_of_length h hhead
  obtain ⟨hyear, hmonths⟩ := append_inj_of_length hfront
    ((length_twoDigits hyy.1).trans (length_twoDigits hyy.2).symm)
  refine Date.ext_parts ?_ (twoDigits_inj hmonths) (twoDigits_inj hday)
  have hsame := twoDigits_inj hyear
  omega

/-- A day's ISO text tells it from every other day. -/
theorem Date.isoformat_inj {d d' : Date} (h : d.isoformat = d'.isoformat) :
    d = d' := by
  have hparts : ∀ e : Date, e.isoformat = "-".intercalate
      [fourDigits e.year, twoDigits e.month, twoDigits e.day] := by
    intro e
    unfold Date.isoformat
    simp only [String.intercalate_cons_cons, String.intercalate_singleton,
      String.append_assoc]
  have hdigits : ∀ (e : Date), ∀ s ∈ [fourDigits e.year, twoDigits e.month,
      twoDigits e.day], '-' ∉ s.toList := by
    intro e s hs hmem
    have hdigit : '-'.isDigit = true := by
      simp only [List.mem_cons, List.not_mem_nil, or_false] at hs
      rcases hs with rfl | rfl | rfl
      · unfold fourDigits at hmem
        rw [String.toList_append, List.mem_append] at hmem
        exact hmem.elim isDigit_of_mem_twoDigits isDigit_of_mem_twoDigits
      · exact isDigit_of_mem_twoDigits hmem
      · exact isDigit_of_mem_twoDigits hmem
    cases hdigit
  rw [hparts, hparts] at h
  have hsame := joined_inj rfl (hdigits d) (hdigits d')
    (List.cons_ne_nil _ _) (List.cons_ne_nil _ _) h
  obtain ⟨hyear, hrest⟩ := List.cons.inj hsame
  obtain ⟨hmonth, hrest⟩ := List.cons.inj hrest
  obtain ⟨hday, -⟩ := List.cons.inj hrest
  refine Date.ext_parts ?_ (twoDigits_inj hmonth) (twoDigits_inj hday)
  unfold fourDigits at hyear
  obtain ⟨⟨-, hbound⟩, -⟩ := d.valid
  obtain ⟨⟨-, hbound'⟩, -⟩ := d'.valid
  obtain ⟨hcentury, hyy⟩ := append_inj_of_length hyear
    ((length_twoDigits (by omega)).trans (length_twoDigits (by omega)).symm)
  have hhundreds := twoDigits_inj hcentury
  have hyears := twoDigits_inj hyy
  omega

-- ======================================================== tags and keys

/-- The separator of a tag and of a key is in none of their digits. -/
private theorem not_digit {c : Char} (hc : c.isDigit = false) {n : Nat} :
    c ∉ (toString n).toList := by
  intro hmem
  rw [isDigit_of_mem_toString hmem] at hc
  cases hc

theorem Date.not_mem_yymmdd (d : Date) : '-' ∉ d.yymmdd.toList := by
  intro hmem
  unfold Date.yymmdd at hmem
  simp only [String.toList_append, List.mem_append] at hmem
  have hdigit : '-'.isDigit = true := by
    rcases hmem with (hmem | hmem) | hmem
    · exact isDigit_of_mem_twoDigits hmem
    · exact isDigit_of_mem_twoDigits hmem
    · exact isDigit_of_mem_twoDigits hmem
  cases hdigit

theorem Date.not_mem_isoformat (d : Date) : ':' ∉ d.isoformat.toList := by
  intro hmem
  unfold Date.isoformat fourDigits at hmem
  simp only [String.toList_append, List.mem_append] at hmem
  have hdigit : ∀ {n : Nat}, ':' ∈ (twoDigits n).toList → False := by
    intro n h
    have hcolon := isDigit_of_mem_twoDigits h
    cases hcolon
  have hdash : ':' ∉ "-".toList := by decide
  rcases hmem with ((((hmem | hmem) | hmem) | hmem) | hmem) | hmem
  · exact hdigit hmem
  · exact hdigit hmem
  · exact hdash hmem
  · exact hdigit hmem
  · exact hdash hmem
  · exact hdigit hmem

theorem OptionType.value_inj {t t' : OptionType} (h : t.value = t'.value) :
    t = t' := by
  cases t <;> cases t' <;> first | rfl | exact absurd h (by decide)

namespace TagPurpose

variable {ctx ctx' : StrategyContext} {type type' : OptionType}
  {purpose purpose' : TagPurpose}

/-- The letter a tag starts with. -/
def letter : TagPurpose → Char
  | .entry => 'E'
  | .exit => 'X'
  | .unwind => 'U'

theorem letter_inj (h : purpose.letter = purpose'.letter) :
    purpose = purpose' := by
  cases purpose <;> cases purpose' <;> first | rfl | cases h

/-- A tag is three parts between dashes. -/
theorem text_eq (ctx : StrategyContext) (type : OptionType)
    (purpose : TagPurpose) :
    purpose.text ctx type = "-".intercalate
      [String.singleton purpose.letter ++ toString ctx.instanceId,
        ctx.today.yymmdd, type.value] := by
  have hread : ∀ c : Char, readableTag (String.singleton c) ctx type
      = "-".intercalate [String.singleton c ++ toString ctx.instanceId,
        ctx.today.yymmdd, type.value] := by
    intro c
    unfold readableTag
    simp only [String.intercalate_cons_cons, String.intercalate_singleton,
      String.append_assoc]
  cases purpose with
  | entry => exact hread 'E'
  | exit => exact hread 'X'
  | unwind => exact hread 'U'

/-- The words a key ends in. -/
def words : TagPurpose → List String
  | .entry => ["ENTRY"]
  | .exit => ["EXIT"]
  | .unwind => ["EXIT", "UNWIND"]

theorem words_inj (h : purpose.words = purpose'.words) :
    purpose = purpose' := by
  cases purpose <;> cases purpose' <;> first | rfl | exact absurd h (by decide)

/-- A key is four or five parts between colons. -/
theorem key_eq (ctx : StrategyContext) (type : OptionType)
    (purpose : TagPurpose) :
    purpose.key ctx type = ":".intercalate
      (toString ctx.instanceId :: ctx.today.isoformat :: type.value
        :: purpose.words) := by
  cases purpose <;> rfl

private theorem text_parts (ctx : StrategyContext) (type : OptionType)
    (purpose : TagPurpose) :
    ∀ s ∈ [String.singleton purpose.letter ++ toString ctx.instanceId,
      ctx.today.yymmdd, type.value], '-' ∉ s.toList := by
  intro s hs
  simp only [List.mem_cons, List.not_mem_nil, or_false] at hs
  rcases hs with rfl | rfl | rfl
  · rw [String.toList_append, List.mem_append]
    refine not_or.2 ⟨?_, not_digit (by decide)⟩
    cases purpose <;> decide
  · exact ctx.today.not_mem_yymmdd
  · cases type <;> decide

private theorem key_parts (ctx : StrategyContext) (type : OptionType)
    (purpose : TagPurpose) :
    ∀ s ∈ toString ctx.instanceId :: ctx.today.isoformat :: type.value
      :: purpose.words, ':' ∉ s.toList := by
  intro s hs
  simp only [List.mem_cons] at hs
  rcases hs with rfl | rfl | rfl | hs
  · exact not_digit (by decide)
  · exact ctx.today.not_mem_isoformat
  · cases type <;> decide
  · have hwords : ∀ s ∈ purpose.words, ':' ∉ s.toList := by
      cases purpose <;> decide
    exact hwords s hs

theorem toString_inj {m n : Nat} (h : toString m = toString n) : m = n := by
  rw [← shown_toString m, h, shown_toString]

/-- Within a century a tag's text names its four components. -/
theorem text_inj (hpast : ctx.today.year < ctx'.today.year + 100)
    (hfuture : ctx'.today.year < ctx.today.year + 100)
    (h : purpose.text ctx type = purpose'.text ctx' type') :
    SameLeg ctx ctx' type type' purpose purpose' := by
  rw [text_eq, text_eq] at h
  have hparts := joined_inj rfl (text_parts ctx type purpose)
    (text_parts ctx' type' purpose') (List.cons_ne_nil _ _)
    (List.cons_ne_nil _ _) h
  obtain ⟨hhead, hrest⟩ := List.cons.inj hparts
  obtain ⟨hday, hrest⟩ := List.cons.inj hrest
  obtain ⟨htype, -⟩ := List.cons.inj hrest
  obtain ⟨hletter, hid⟩ := append_inj_of_length hhead
    (String.length_singleton.trans String.length_singleton.symm)
  refine ⟨toString_inj hid, Date.yymmdd_inj hpast hfuture hday,
    OptionType.value_inj htype, letter_inj ?_⟩
  have hchars := congrArg String.toList hletter
  rw [String.toList_singleton, String.toList_singleton] at hchars
  exact (List.cons.inj hchars).1

/-- A key names its four components. -/
theorem key_inj (h : purpose.key ctx type = purpose'.key ctx' type') :
    SameLeg ctx ctx' type type' purpose purpose' := by
  rw [key_eq, key_eq] at h
  have hparts := joined_inj rfl (key_parts ctx type purpose)
    (key_parts ctx' type' purpose') (List.cons_ne_nil _ _)
    (List.cons_ne_nil _ _) h
  obtain ⟨hid, hrest⟩ := List.cons.inj hparts
  obtain ⟨hday, hrest⟩ := List.cons.inj hrest
  obtain ⟨htype, hwords⟩ := List.cons.inj hrest
  exact ⟨toString_inj hid, Date.isoformat_inj hday,
    OptionType.value_inj htype, words_inj hwords⟩

/-- Legs with the same components have one text and one key. -/
theorem same (h : SameLeg ctx ctx' type type' purpose purpose') :
    purpose.text ctx type = purpose'.text ctx' type'
      ∧ purpose.key ctx type = purpose'.key ctx' type' := by
  obtain ⟨hid, hday, rfl, rfl⟩ := h
  rw [text_eq, text_eq, key_eq, key_eq, hid, hday]
  exact ⟨rfl, rfl⟩

/-- How long a tag is does not depend on the leg or the purpose. -/
theorem length_text (ctx : StrategyContext) (type : OptionType)
    (purpose : TagPurpose) :
    (purpose.text ctx type).length = (toString ctx.instanceId).length + 11 := by
  rw [text_eq]
  simp only [String.intercalate_cons_cons, String.intercalate_singleton,
    String.length_append, Date.length_yymmdd]
  have htype : type.value.length = 2 := by cases type <;> rfl
  have hletter : (String.singleton purpose.letter).length = 1 :=
    String.length_singleton
  have hdash : "-".length = 1 := rfl
  omega

/-- A tag that is returned is its text, and short enough. -/
theorem brokerTag_ok {t : String} (h : purpose.brokerTag ctx type = .ok t) :
    t = purpose.text ctx type ∧ t.length ≤ 20 := by
  have heq := validateTag_ok h
  refine ⟨heq, ?_⟩
  rw [heq]
  unfold brokerTag validateTag at h
  split_ifs at h with hlong
  exact Nat.not_lt.1 hlong

end TagPurpose

-- ============================================================ the entry

section Entry

variable {ctx : StrategyContext} {w : World}

instance : BlindToOrders NothingRecorded where
  refl := fun _ => ⟨rfl, rfl, rfl⟩
  trans := fun h h' => ⟨h'.positions.trans h.positions,
    h'.trades.trans h.trades, h'.intents.trans h.intents⟩
  orders := fun _ _ => ⟨rfl, rfl, rfl⟩
  breaks := fun _ _ => ⟨rfl, rfl, rfl⟩

namespace EntryLogic

/-- No leg is created under too long a tag. -/
private theorem createLeg_refuses {db : Db} {positionId quantity : Nat}
    {strike : ℚ} {contract : BrokerInstrument} {E : Exc → Prop}
    {Q : LegIds → Db → Prop} (hE : ∀ e, E e)
    (hlong : 20 < (entryTag ctx contract.optionType).length) :
    Meets (createLeg ctx positionId quantity strike contract) db Q E := by
  unfold createLeg PositionRepository.addTrade
  simp only [meets_bind, meets_fetch, meets_flush, meets_pure, meets_lift]
  refine ⟨fun _ => ⟨fun tag htag => ?_, fun e _ => hE e⟩, fun _ => hE _⟩
  unfold validateTag at htag
  rw [if_pos hlong] at htag
  cases htag

/-- The durable record either finds the day's position or raises. -/
private theorem createDurableRecord_refuses
    (hlong : ∀ type, 20 < (entryTag ctx type).length)
    (selection : StraddleStrikeSelection) :
    (createDurableRecord ctx selection).Safe (fun _ => True)
      (fun w' => NothingRecorded w.db.rows w'.db.rows) w fun r w' =>
        NothingRecorded w.db.rows w'.db.rows ∧ ∀ d, r ≠ .ok (some d) := by
  have hturn : ∀ m, NothingRecorded w.db.rows (w.interfere m).db.rows :=
    fun m => (waits_interfere w m).rows
  refine Program.safe_unitOfWork ⟨rfl, rfl, rfl⟩
    (fun m f _ _ => ⟨hturn m, nofun⟩) fun m _ _ => ?_
  rw [meets_bind]
  refine getOrCreate_meets ?_ fun _ => ?_
  · unfold PositionRepository.getByInstanceAndDate
    rw [meets_bind, meets_fetch, meets_scalarOneOrNone]
    refine ⟨fun _ => ⟨rfl, fun x hx => nomatch hx⟩,
      fun row _ => ⟨rfl, fun x _ => ?_⟩, fun _ => ⟨hturn m, nofun⟩⟩
    dsimp only
    rw [if_neg Bool.false_ne_true, meets_pure]
    exact ⟨hturn m, nofun⟩
  · unfold PositionRepository.insert
    rw [meets_bind, meets_fetch, meets_bind, meets_flush]
    refine ⟨fun _ => ?_, fun _ => ⟨hturn m, nofun⟩⟩
    rw [meets_pure]
    dsimp only
    rw [if_pos rfl, meets_bind]
    exact createLeg_refuses (fun e => ⟨hturn m, nofun⟩) (hlong _)

/-- With too long a tag, `enter` leaves no row, and does not return unless
a gate turns it away. -/
theorem enter_refuses (hlong : ∀ type, 20 < (entryTag ctx type).length)
    (inputs : EntryInputs) :
    (enter ctx inputs).Safe (fun _ => True)
      (fun w' => NothingRecorded w.db.rows w'.db.rows) w fun r w' =>
        NothingRecorded w.db.rows w'.db.rows
          ∧ ∀ result, r = .ok result → TurnedAway result.outcome := by
  unfold enter
  rw [Prog.safe_bind]
  refine Prog.Safe.mono (safe_begin (R := NothingRecorded) ctx
    (Q := fun r w' => NothingRecorded w.db.rows w'.db.rows
      ∧ (∀ d, r ≠ .ok (.ok d))
      ∧ ∀ result, r = .ok (.error result) → TurnedAway result.outcome)
    (fun _ h => h.rows) (fun e w' h => ⟨h.rows, nofun, nofun⟩)
    (fun result w' hturned h => ⟨h.rows, nofun, fun _ heq => ?_⟩)
    fun selection w' h => ?_) fun r w' hr => ?_
  · cases heq
    exact hturned
  · have hkept : ∀ v : World, NothingRecorded w'.db.rows v.db.rows →
        NothingRecorded w.db.rows v.db.rows :=
      fun v hv => Session.Frame.trans h.rows hv
    refine (createDurableRecord_refuses hlong selection).imp hkept
      fun r v hv => ⟨fun e _ => ⟨hkept v hv.1, nofun, nofun⟩, fun _ result
        hturned => ⟨hkept v hv.1, nofun, fun _ heq => ?_⟩, fun d hd =>
        absurd hd (hv.2 d)⟩
    cases heq
    exact hturned
  · obtain ⟨hrows, hnone, hturned⟩ := hr
    cases r with
    | error e => exact ⟨hrows, nofun⟩
    | ok begun =>
        rw [Prog.andThen_ok]
        cases begun with
        | error result =>
            refine ⟨hrows, fun _ heq => ?_⟩
            cases heq
            exact hturned _ rfl
        | ok d => exact absurd rfl (hnone d)

end EntryLogic

end Entry

-- =============================================================== the law

/-- For any two legs of instances less than a century apart: the tags that
are returned are equal only if the legs are the same, the keys are equal
exactly when the texts of the tags are, no tag returned is longer than 20
characters, and an entry with too long a tag commits no position, trade or
intent, whatever happens, and does not return unless a gate turned it
away. -/
theorem tags_injective (ctx ctx' : StrategyContext)
    (type type' : OptionType) (purpose purpose' : TagPurpose)
    (hpast : ctx.today.year < ctx'.today.year + 100)
    (hfuture : ctx'.today.year < ctx.today.year + 100) :
    (∀ tag, purpose.brokerTag ctx type = .ok tag →
        purpose'.brokerTag ctx' type' = .ok tag →
        SameLeg ctx ctx' type type' purpose purpose')
      ∧ (purpose.key ctx type = purpose'.key ctx' type'
        ↔ purpose.text ctx type = purpose'.text ctx' type')
      ∧ (∀ tag, purpose.brokerTag ctx type = .ok tag → tag.length ≤ 20)
      ∧ (20 < (purpose.text ctx type).length →
        ∀ (inputs : EntryInputs) (ms rest : List Move) (w w' : World)
          (ending : Prog.Ending Exc EntryResult),
          (EntryLogic.enter ctx inputs).run ms w = (ending, w', rest) →
          NothingRecorded w.db.rows w'.db.rows
            ∧ ∀ result, ending = .returned result →
              EntryLogic.TurnedAway result.outcome) := by
  refine ⟨fun tag h h' => ?_, ⟨fun h => ?_, fun h => ?_⟩,
    fun tag h => (TagPurpose.brokerTag_ok h).2, fun hlong => ?_⟩
  · refine TagPurpose.text_inj hpast hfuture ?_
    rw [← (TagPurpose.brokerTag_ok h).1, (TagPurpose.brokerTag_ok h').1]
  · exact (TagPurpose.same (TagPurpose.key_inj h)).1
  · exact (TagPurpose.same (TagPurpose.text_inj hpast hfuture h)).2
  · intro inputs ms rest w w' ending hrun
    have htags : ∀ t, 20 < (entryTag ctx t).length := by
      intro t
      have hleg := TagPurpose.length_text ctx type purpose
      have hentry : (entryTag ctx t).length = _ :=
        TagPurpose.length_text ctx t .entry
      omega
    have hsafe := (EntryLogic.enter_refuses (w := w) htags inputs).run
      fun m (_ : m ∈ ms) => trivial
    rw [hrun] at hsafe
    cases ending with
    | crashed => exact ⟨hsafe, nofun⟩
    | raised e => exact ⟨hsafe.1, nofun⟩
    | returned result =>
        refine ⟨hsafe.1, fun _ heq => ?_⟩
        cases heq
        exact hsafe.2 _ rfl

namespace SampleDay

/-- An instance whose id has eleven digits. -/
def huge : StrategyContext := { ctx with instanceId := 10 ^ 10 }

/-- Its entry on a day on which trading is halted. -/
def hugeHalted : Prog.Ending Exc EntryResult × World × List Move :=
  (EntryLogic.enter huge { inputs with halted := .ok true }).run [still]
    morning

/-- Its entry on a day on which nothing stops it. -/
def hugeEntry : Prog.Ending Exc EntryResult × World × List Move :=
  (EntryLogic.enter huge inputs).run [still, still] morning

private theorem hugeEntry_eq :
    hugeEntry = (hugeEntry.1, hugeEntry.2.1, hugeEntry.2.2) := rfl

end SampleDay

/-- Halted by risk, the entry of an instance with too long a tag returns
without an exception. -/
theorem enter_tooLong_returns :
    ¬ ∀ (ctx : StrategyContext) (type : OptionType) (purpose : TagPurpose)
        (inputs : EntryInputs) (ms rest : List Move) (w w' : World)
        (ending : Prog.Ending Exc EntryResult),
        20 < (purpose.text ctx type).length →
        (EntryLogic.enter ctx inputs).run ms w = (ending, w', rest) →
        ending ≠ .crashed → ∃ e, ending = .raised e := by
  intro hclaim
  obtain ⟨e, he⟩ := hclaim SampleDay.huge .ce .entry
    { SampleDay.inputs with halted := .ok true } [SampleDay.still]
    SampleDay.hugeHalted.2.2 SampleDay.morning SampleDay.hugeHalted.2.1
    SampleDay.hugeHalted.1 (by decide +kernel) rfl (by decide +kernel)
  have hreturned : SampleDay.hugeHalted.1 = .returned
      { outcome := .blockedByRisk,
        message := "trading is halted (kill-switch / emergency-exit active)" } :=
    by decide +kernel
  rw [hreturned] at he
  cases he

/-- Where nothing stops it, it leaves no row. -/
theorem tags_injective_huge :
    NothingRecorded SampleDay.morning.db.rows SampleDay.hugeEntry.2.1.db.rows
      ∧ ∀ result, SampleDay.hugeEntry.1 = .returned result →
        EntryLogic.TurnedAway result.outcome :=
  (tags_injective SampleDay.huge SampleDay.ctx .ce .pe .entry .unwind
    (by decide) (by decide)).2.2.2 (by decide +kernel) _ _ _ _ _ _
    SampleDay.hugeEntry_eq

end AlgoPlatform
