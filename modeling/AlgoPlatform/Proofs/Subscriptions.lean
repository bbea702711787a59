/-
When the subscription books agree: the reference counts of the service,
the token set of the stream, and the socket.

# The stale token

An unsubscribe that drops an instrument's last consumer while the socket
is closed never reaches the stream, whose token set keeps the token; the
next connect subscribes it again, and nothing takes it off the socket
after that.

# When they agree

The socket always has the stream's tokens (`Shaped`), and those cover the
active instruments while it is open. So the books disagree only over a
token the stream kept for an instrument nobody holds, and such a token is
owed by an unsubscribe of the kind above (`Owed`). `Renewed` says that
every instrument dropped so is held again by the time the socket opens.
-/
import AlgoPlatform.Model.TickStream
import Mathlib.Data.List.Induction

namespace AlgoPlatform

-- ============================================================== counts

namespace SubscriptionManager

variable {s : SubscriptionManager} {i j : InstrumentIdentifier}
  {instruments : List InstrumentIdentifier}

/-- Every instrument is listed once, with at least one consumer. -/
structure Counted (s : SubscriptionManager) : Prop where
  positive : ∀ e ∈ s, 0 < e.2
  nodup : (s.map Prod.fst).Nodup

theorem counted_nil : Counted [] := ⟨nofun, List.nodup_nil⟩

theorem referenceCount_cons (e : InstrumentIdentifier × Nat) :
    referenceCount (e :: s) i
      = if i = e.1 then e.2 else s.referenceCount i := by
  unfold referenceCount
  rw [List.lookup_cons]
  by_cases h : i = e.1
  · simp [h]
  · simp [h, beq_eq_false_iff_ne.2 h]

/-- An instrument is active while it has a consumer. -/
theorem Counted.active_iff (h : s.Counted) :
    i ∈ s.active ↔ 0 < s.referenceCount i := by
  have hpositive := h.positive
  clear h
  induction s with
  | nil => exact ⟨nofun, nofun⟩
  | cons e s ih =>
      have hrest := ih fun e he => hpositive e (List.mem_cons_of_mem _ he)
      rw [referenceCount_cons]
      unfold active at hrest ⊢
      rw [List.map_cons, List.mem_cons]
      by_cases hi : i = e.1
      · rw [if_pos hi]
        exact ⟨fun _ => hpositive e List.mem_cons_self, fun _ => .inl hi⟩
      · rw [if_neg hi]
        exact (or_iff_right hi).trans hrest

/-- What is listed for an instrument is its count. -/
theorem Counted.count (h : s.Counted) {e : InstrumentIdentifier × Nat}
    (he : e ∈ s) : s.referenceCount e.1 = e.2 := by
  have hnodup := h.nodup
  clear h
  induction s with
  | nil => cases he
  | cons x s ih =>
      rw [List.map_cons, List.nodup_cons] at hnodup
      rw [referenceCount_cons]
      rcases List.mem_cons.1 he with rfl | hrest
      · exact if_pos rfl
      · have hne : e.1 ≠ x.1 := fun heq =>
          hnodup.1 (heq ▸ List.mem_map_of_mem hrest)
        rw [if_neg hne]
        exact ih hrest hnodup.2

theorem Counted.subscribeOne (h : s.Counted) :
    (s.subscribeOne i).Counted
      ∧ ∀ j, j ∈ (s.subscribeOne i).active ↔ j ∈ s.active ∨ j = i := by
  by_cases hi : s.referenceCount i = 0
  · have hfresh : i ∉ s.active := by
      rw [h.active_iff, hi]
      exact Nat.lt_irrefl 0
    have hone : s.subscribeOne i = s ++ [(i, 1)] := if_pos hi
    rw [hone]
    refine ⟨⟨fun e he => ?_, ?_⟩, fun j => ?_⟩
    · rcases List.mem_append.1 he with hold | hnew
      · exact h.positive e hold
      · rw [List.mem_singleton.1 hnew]
        exact Nat.one_pos
    · rw [List.map_append]
      refine h.nodup.append (List.nodup_singleton _) ?_
      intro x hx hx'
      rw [List.mem_singleton.1 hx'] at hx
      exact hfresh hx
    · unfold active
      rw [List.map_append, List.mem_append]
      exact or_congr_right List.mem_singleton
  · have hmany : s.subscribeOne i
        = s.map fun e => if e.1 = i then (e.1, e.2 + 1) else e := if_neg hi
    have hkeys : (s.subscribeOne i).map Prod.fst = s.map Prod.fst := by
      rw [hmany, List.map_map]
      refine List.map_congr_left fun e _ => ?_
      show (if e.1 = i then (e.1, e.2 + 1) else e).1 = e.1
      split <;> rfl
    refine ⟨⟨fun e he => ?_, hkeys ▸ h.nodup⟩, fun j => ?_⟩
    · rw [hmany] at he
      obtain ⟨x, hx, rfl⟩ := List.mem_map.1 he
      split
      · exact Nat.succ_pos _
      · exact h.positive x hx
    · unfold active
      rw [hkeys]
      refine ⟨.inl, fun hj => hj.elim id fun hji => ?_⟩
      rw [hji]
      exact h.active_iff.2 (Nat.pos_of_ne_zero hi)

theorem Counted.unsubscribeOne (h : s.Counted) :
    (s.unsubscribeOne i).1.Counted
      ∧ ((s.unsubscribeOne i).2 = true → i ∈ s.active)
      ∧ ∀ j, j ∈ (s.unsubscribeOne i).1.active
        ↔ j ∈ s.active ∧ ¬ ((s.unsubscribeOne i).2 = true ∧ j = i) := by
  unfold SubscriptionManager.unsubscribeOne
  split
  · exact ⟨h, nofun, fun j => (and_iff_left (fun hj => nomatch hj.1)).symm⟩
  · rename_i hone
    refine ⟨⟨fun e he => h.positive e (List.mem_filter.1 he).1, ?_⟩,
      fun _ => h.active_iff.2 (hone ▸ Nat.one_pos), fun j => ?_⟩
    · exact h.nodup.sublist (List.filter_sublist.map _)
    · unfold active
      simp only [List.mem_map, List.mem_filter, decide_eq_true_eq, true_and]
      constructor
      · intro ⟨e, ⟨he, hne⟩, hj⟩
        exact ⟨⟨e, he, hj⟩, fun hji => hne (hj.trans hji)⟩
      · intro ⟨⟨e, he, hj⟩, hne⟩
        exact ⟨e, ⟨he, fun hei => hne (hj.symm.trans hei)⟩, hj⟩
  · rename_i hzero hone
    have hkeys : (s.map fun e => if e.1 = i then (e.1, e.2 - 1) else e).map
        Prod.fst = s.map Prod.fst := by
      rw [List.map_map]
      refine List.map_congr_left fun e _ => ?_
      show (if e.1 = i then (e.1, e.2 - 1) else e).1 = e.1
      split <;> rfl
    refine ⟨⟨fun e he => ?_, hkeys ▸ h.nodup⟩, nofun, fun j => ?_⟩
    · obtain ⟨x, hx, rfl⟩ := List.mem_map.1 he
      split
      · rename_i hxi
        have hcount := h.count hx
        rw [hxi] at hcount
        show 0 < x.2 - 1
        have hne_zero : s.referenceCount i ≠ 0 := hzero
        have hne_one : s.referenceCount i ≠ 1 := hone
        omega
      · exact h.positive x hx
    · unfold active
      rw [hkeys]
      exact (and_iff_left (fun hj => nomatch hj.1)).symm

/-- The list of instruments that changed, with one more looked at. -/
theorem mem_noted {noted : List InstrumentIdentifier} (changes : Prop)
    [Decidable changes] :
    j ∈ (if changes ∧ i ∉ noted then noted ++ [i] else noted)
      ↔ j ∈ noted ∨ changes ∧ j = i := by
  split
  · rename_i h
    rw [List.mem_append, List.mem_singleton]
    exact or_congr_right (and_iff_right h.1).symm
  · rename_i h
    refine ⟨.inl, fun hj => hj.elim id fun ⟨hc, hji⟩ => ?_⟩
    by_contra hnot
    exact h ⟨hc, hji ▸ hnot⟩

/-- `subscribe`: what is active after it, and what is new. -/
theorem Counted.subscribe (h : s.Counted)
    (instruments : List InstrumentIdentifier) :
    (s.subscribe instruments).1.Counted
      ∧ (∀ j, j ∈ (s.subscribe instruments).1.active
        ↔ j ∈ s.active ∨ j ∈ instruments)
      ∧ ∀ j, j ∈ (s.subscribe instruments).2
        ↔ j ∈ instruments ∧ j ∉ s.active := by
  suffices hfold : ∀ newly : List InstrumentIdentifier,
      let after := instruments.foldl (fun x i => (x.1.subscribeOne i,
        if x.1.referenceCount i = 0 ∧ i ∉ x.2 then x.2 ++ [i] else x.2))
          (s, newly)
      after.1.Counted ∧ (∀ j, j ∈ after.1.active
          ↔ j ∈ s.active ∨ j ∈ instruments)
        ∧ ∀ j, j ∈ after.2 ↔ j ∈ newly ∨ j ∈ instruments ∧ j ∉ s.active by
    obtain ⟨hcounted, hactive, hnew⟩ := hfold []
    exact ⟨hcounted, hactive, fun j => (hnew j).trans (by simp)⟩
  induction instruments generalizing s with
  | nil => intro newly; exact ⟨h, fun j => by simp, fun j => by simp⟩
  | cons i rest ih =>
      intro newly
      obtain ⟨hone, hmem⟩ := h.subscribeOne (i := i)
      have hzero : s.referenceCount i = 0 ↔ i ∉ s.active := by
        rw [h.active_iff]
        omega
      obtain ⟨hcounted, hactive, hnew⟩ := ih hone
        (if s.referenceCount i = 0 ∧ i ∉ newly then newly ++ [i] else newly)
      refine ⟨hcounted, fun j => ?_, fun j => ?_⟩
      · refine (hactive j).trans ?_
        rw [hmem, List.mem_cons, or_assoc]
      · refine (hnew j).trans ?_
        rw [mem_noted, hmem, hzero, List.mem_cons]
        by_cases hj : j = i
        · subst hj
          simp
        · simp [hj]

/-- `unsubscribe`: what is active after it, and what is no longer. -/
theorem Counted.unsubscribe (h : s.Counted)
    (instruments : List InstrumentIdentifier) :
    (s.unsubscribe instruments).1.Counted
      ∧ (∀ j, j ∈ (s.unsubscribe instruments).1.active
        ↔ j ∈ s.active ∧ j ∉ (s.unsubscribe instruments).2)
      ∧ ∀ j, j ∈ (s.unsubscribe instruments).2 → j ∈ s.active := by
  suffices hfold : ∀ newly : List InstrumentIdentifier,
      (∀ j ∈ newly, j ∉ s.active) →
      let after := instruments.foldl (fun x i => ((x.1.unsubscribeOne i).1,
        if (x.1.unsubscribeOne i).2 = true ∧ i ∉ x.2 then x.2 ++ [i]
        else x.2)) (s, newly)
      after.1.Counted ∧ (∀ j, j ∈ after.1.active
          ↔ j ∈ s.active ∧ j ∉ after.2)
        ∧ (∀ j, j ∈ after.2 → j ∈ newly ∨ j ∈ s.active)
        ∧ ∀ j ∈ newly, j ∈ after.2 by
    obtain ⟨hcounted, hactive, hgone, _⟩ := hfold [] (List.forall_mem_nil _)
    exact ⟨hcounted, hactive, fun j hj =>
      (hgone j hj).resolve_left List.not_mem_nil⟩
  induction instruments generalizing s with
  | nil =>
      intro newly hnewly
      exact ⟨h, fun j => ⟨fun hj => ⟨hj, fun hn => hnewly j hn hj⟩, And.left⟩,
        fun j => .inl, fun j => id⟩
  | cons i rest ih =>
      intro newly hnewly
      obtain ⟨hone, hwas, hmem⟩ := h.unsubscribeOne (i := i)
      have hnoted : ∀ j ∈ (if (s.unsubscribeOne i).2 = true ∧ i ∉ newly then
          newly ++ [i] else newly), j ∉ (s.unsubscribeOne i).1.active := by
        intro j hj
        rw [hmem]
        rcases (mem_noted _).1 hj with hold | hji
        · exact fun hj => hnewly j hold hj.1
        · exact fun hj => hj.2 hji
      obtain ⟨hcounted, hactive, hgone, hkept⟩ := ih hone _ hnoted
      refine ⟨hcounted, fun j => ?_, fun j hj => ?_, fun j hj => ?_⟩
      · refine (hactive j).trans (and_congr_left fun hj => ?_)
        rw [hmem]
        exact and_iff_left fun hji =>
          hj (hkept j ((mem_noted _).2 (.inr hji)))
      · rcases hgone j hj with hnoted | hj
        · rcases (mem_noted _).1 hnoted with hold | ⟨hflag, rfl⟩
          · exact .inl hold
          · exact .inr (hwas hflag)
        · exact .inr ((hmem j).1 hj).1
      · exact hkept j ((mem_noted _).2 (.inl hj))

end SubscriptionManager

-- ============================================================== stream

namespace KiteTickStream

variable {tokenFor : TokenForInstrument} {s : KiteTickStream}
  {instruments : List InstrumentIdentifier} {i : InstrumentIdentifier} {n : Nat}

theorem mem_resolveTokens : n ∈ resolveTokens tokenFor instruments
    ↔ ∃ i ∈ instruments, tokenFor i = some n := by
  unfold resolveTokens
  rw [List.mem_toFinset, List.mem_filterMap]

/-- The stream's token set is what its open socket is subscribed to. -/
def Shaped (s : KiteTickStream) : Prop :=
  match s.ticker with
  | none => s.connected = false ∧ s.subscribedTokens = ∅
  | some ticker => ticker.socket
      = if s.connected = true then some s.subscribedTokens else none

theorem subscribe_eq : s.subscribe tokenFor instruments
    = { s with subscribedTokens := s.subscribedTokens
                 ∪ resolveTokens tokenFor instruments
               ticker := s.ticker.map
                 (·.subscribe (resolveTokens tokenFor instruments)) } := by
  unfold subscribe
  dsimp only
  split
  · rename_i h
    obtain ⟨ticker, connected, tokens⟩ := s
    rw [h]
    cases ticker with
    | none => simp
    | some t =>
        obtain ⟨socket⟩ := t
        cases socket <;> simp [KiteMarketTicker.subscribe]
  · rfl

theorem unsubscribe_eq : s.unsubscribe tokenFor instruments
    = { s with subscribedTokens := s.subscribedTokens
                 \ resolveTokens tokenFor instruments
               ticker := s.ticker.map
                 (·.unsubscribe (resolveTokens tokenFor instruments)) } := by
  unfold unsubscribe
  dsimp only
  split
  · rename_i h
    obtain ⟨ticker, connected, tokens⟩ := s
    rw [h]
    cases ticker with
    | none => simp
    | some t =>
        obtain ⟨socket⟩ := t
        cases socket <;> simp [KiteMarketTicker.unsubscribe]
  · rfl

theorem Shaped.subscribe (h : s.Shaped) (ht : s.ticker.isSome = true) :
    (s.subscribe tokenFor instruments).Shaped := by
  rw [subscribe_eq]
  obtain ⟨_ | ticker, connected, tokens⟩ := s
  · cases ht
  · have hsocket : ticker.socket
        = if connected = true then some tokens else none := h
    show (ticker.socket.map _) = if connected = true then some _ else none
    rw [hsocket]
    cases connected <;> rfl

theorem Shaped.unsubscribe (h : s.Shaped) :
    (s.unsubscribe tokenFor instruments).Shaped := by
  rw [unsubscribe_eq]
  obtain ⟨_ | ticker, connected, tokens⟩ := s
  · exact ⟨h.1, by rw [show tokens = ∅ from h.2, Finset.empty_sdiff]⟩
  · have hsocket : ticker.socket
        = if connected = true then some tokens else none := h
    show (ticker.socket.map _) = if connected = true then some _ else none
    rw [hsocket]
    cases connected <;> rfl

theorem start_tokens : s.start.subscribedTokens = s.subscribedTokens := by
  unfold start
  split <;> rfl

theorem start_connected : s.start.connected = s.connected := by
  unfold start
  split <;> rfl

theorem Shaped.start (h : s.Shaped) : s.start.Shaped := by
  obtain ⟨_ | ticker, connected, tokens⟩ := s
  · show none = if connected = true then some tokens else none
    rw [show connected = false from h.1]
    rfl
  · exact h

/-- A connected stream has a ticker. -/
theorem Shaped.ticker (h : s.Shaped) (hopen : s.connected = true) :
    s.ticker.isSome = true := by
  obtain ⟨_ | ticker, connected, tokens⟩ := s
  · rw [show connected = false from h.1] at hopen
    cases hopen
  · rfl

/-- A connected stream's socket has its tokens. -/
theorem Shaped.socket (h : s.Shaped) (hopen : s.connected = true) :
    ∃ ticker, s.ticker = some ticker
      ∧ ticker.socket = some s.subscribedTokens := by
  obtain ⟨_ | ticker, connected, tokens⟩ := s
  · rw [show connected = false from h.1] at hopen
    cases hopen
  · exact ⟨ticker, rfl, Eq.trans h (if_pos hopen)⟩

/-- A connect gives the fresh socket every token the stream kept. -/
theorem Shaped.connect (h : s.Shaped) (ht : s.ticker.isSome = true) :
    s.opened.handleConnect.Shaped
      ∧ s.opened.handleConnect.connected = true
      ∧ s.opened.handleConnect.subscribedTokens = s.subscribedTokens
      ∧ s.opened.handleConnect.ticker.isSome = true := by
  obtain ⟨_ | ticker, connected, tokens⟩ := s
  · cases ht
  · refine ⟨?_, rfl, rfl, ?_⟩
    · unfold Shaped handleConnect opened
      by_cases hempty : tokens = ∅
      · simp [hempty]
      · simp [hempty, KiteMarketTicker.subscribe]
    · unfold handleConnect opened
      by_cases hempty : tokens = ∅ <;> simp [hempty]

theorem Shaped.close (h : s.Shaped) (ht : s.ticker.isSome = true) :
    s.closed.handleClose.Shaped := by
  obtain ⟨_ | ticker, connected, tokens⟩ := s
  · cases ht
  · rfl

end KiteTickStream

-- ================================================================ feed

namespace MarketFeed

open KiteTickStream

variable {tokenFor : TokenForInstrument} {f : MarketFeed} {e : Event}
  {es : List Event} {i : InstrumentIdentifier} {n : Nat}

/-- The instrument has a consumer. -/
def Active (f : MarketFeed) (i : InstrumentIdentifier) : Prop :=
  i ∈ f.service.subscriptions.active

instance (f : MarketFeed) (i : InstrumentIdentifier) : Decidable (f.Active i) :=
  inferInstanceAs (Decidable (_ ∈ _))

/-- The tokens of the active instruments. -/
def activeTokens (tokenFor : TokenForInstrument) (f : MarketFeed) :
    Finset Nat :=
  resolveTokens tokenFor f.service.subscriptions.active

/-- An open socket is subscribed to the tokens of the active instruments
and to nothing else. -/
def Agrees (tokenFor : TokenForInstrument) (f : MarketFeed) : Prop :=
  ∀ ticker ∈ f.stream.ticker, ∀ tokens ∈ ticker.socket,
    tokens = f.activeTokens tokenFor

/-- The books agree after every event of the run. -/
def BooksAgree (tokenFor : TokenForInstrument) (es : List Event) : Prop :=
  ∀ pre, pre <+: es → Agrees tokenFor (run tokenFor pre)

/-- Some consumer asks for the instrument. -/
def Named (es : List Event) (i : InstrumentIdentifier) : Prop :=
  ∃ instruments, .subscribe instruments ∈ es ∧ i ∈ instruments

/-- No two instruments of a run share a token. -/
def Distinct (tokenFor : TokenForInstrument) (es : List Event) : Prop :=
  ∀ i j n, Named es i → Named es j → tokenFor i = some n →
    tokenFor j = some n → i = j

/-- The unsubscribe drops the instrument's last consumer while the stream,
not connected, keeps its token. -/
def Dropped (tokenFor : TokenForInstrument) (f : MarketFeed)
    (instruments : List InstrumentIdentifier) (i : InstrumentIdentifier) :
    Prop :=
  f.stream.connected = false ∧ f.Active i
    ∧ ¬ (f.unsubscribe tokenFor instruments).Active i
    ∧ ∃ n ∈ tokenFor i, n ∈ f.stream.subscribedTokens

/-- An instrument dropped while the socket is closed is held again when
the socket next opens, unless the stream is stopped in between. -/
def Renewed (tokenFor : TokenForInstrument) (es : List Event) : Prop :=
  ∀ pre instruments mid post i,
    es = pre ++ .unsubscribe instruments :: mid ++ .connect :: post →
    Dropped tokenFor (run tokenFor pre) instruments i →
    (∀ e ∈ mid, e ≠ .connect ∧ e ≠ .stop) →
    (run tokenFor (pre ++ .unsubscribe instruments :: mid)).Active i

theorem run_snoc (tokenFor : TokenForInstrument) (es : List Event)
    (e : Event) :
    run tokenFor (es ++ [e]) = step tokenFor (run tokenFor es) e := by
  unfold run
  rw [List.foldl_append]
  rfl

instance (tokenFor : TokenForInstrument) (f : MarketFeed) :
    Decidable (Agrees tokenFor f) := by
  unfold Agrees
  infer_instance

/-- What is left of a stale token's cause: the unsubscribe that dropped
it, with no connect or stop since. -/
private def Owed (tokenFor : TokenForInstrument) (es : List Event)
    (i : InstrumentIdentifier) : Prop :=
  ∃ pre instruments mid, es = pre ++ .unsubscribe instruments :: mid
    ∧ Dropped tokenFor (run tokenFor pre) instruments i
    ∧ ∀ e ∈ mid, e ≠ .connect ∧ e ≠ .stop

/-- What holds of the books along every run. -/
private structure Books (tokenFor : TokenForInstrument) (es : List Event)
    (f : MarketFeed) : Prop where
  counted : f.service.subscriptions.Counted
  named : ∀ i, f.Active i → Named es i
  shaped : f.stream.Shaped
  known : ∀ n ∈ f.stream.subscribedTokens, ∃ i, Named es i
    ∧ tokenFor i = some n
  covered : f.stream.connected = true →
    f.activeTokens tokenFor ⊆ f.stream.subscribedTokens

section Effects

variable {instruments : List InstrumentIdentifier}

/-- While disconnected, a consumer's call leaves the stream alone. -/
theorem subscribe_disconnected (h : f.stream.connected = false) :
    (f.subscribe tokenFor instruments).stream = f.stream :=
  if_neg fun hc => by simp [h] at hc

theorem unsubscribe_disconnected (h : f.stream.connected = false) :
    (f.unsubscribe tokenFor instruments).stream = f.stream :=
  if_neg fun hc => by simp [h] at hc

/-- While connected, the stream is told what is new. -/
theorem subscribe_connected (h : f.stream.connected = true) :
    (f.subscribe tokenFor instruments).stream = f.stream.subscribe tokenFor
      (f.service.subscriptions.subscribe instruments).2 := by
  unfold subscribe
  dsimp only
  split
  · rfl
  · rename_i hnew
    have hnil : (f.service.subscriptions.subscribe instruments).2 = [] := by
      by_contra hne
      exact hnew ⟨hne, h⟩
    rw [hnil]
    rfl

/-- While connected, the stream is told what is no longer needed. -/
theorem unsubscribe_connected (h : f.stream.connected = true) :
    (f.unsubscribe tokenFor instruments).stream
      = f.stream.unsubscribe tokenFor
        (f.service.subscriptions.unsubscribe instruments).2 := by
  unfold unsubscribe
  dsimp only
  split
  · rfl
  · rename_i hnew
    have hnil : (f.service.subscriptions.unsubscribe instruments).2 = [] := by
      by_contra hne
      exact hnew ⟨hne, h⟩
    rw [hnil]
    rfl

theorem resubscribeAll_stream : (f.resubscribeAll tokenFor).stream
    = f.stream.subscribe tokenFor f.service.subscriptions.active := by
  unfold resubscribeAll
  dsimp only
  split
  · rfl
  · rename_i hnil
    rw [not_not.1 hnil]
    rfl

theorem resubscribeAll_service :
    (f.resubscribeAll tokenFor).service = f.service := by
  unfold resubscribeAll
  dsimp only
  split <;> rfl

theorem active_resubscribed :
    (f.resubscribeAll tokenFor).Active i ↔ f.Active i := by
  unfold Active
  rw [resubscribeAll_service]

theorem mem_resubscribed :
    n ∈ (f.resubscribeAll tokenFor).stream.subscribedTokens
      ↔ n ∈ f.stream.subscribedTokens ∨ n ∈ f.activeTokens tokenFor := by
  rw [resubscribeAll_stream, subscribe_eq]
  exact Finset.mem_union

end Effects

/-- Where there is no ticker, there are no tokens. -/
private theorem ticker_of_token (h : f.stream.Shaped)
    (hn : n ∈ f.stream.subscribedTokens) : f.stream.ticker.isSome = true := by
  unfold Shaped at h
  cases ht : f.stream.ticker with
  | some ticker => rfl
  | none =>
      rw [ht] at h
      rw [h.2] at hn
      exact absurd hn (Finset.notMem_empty n)

private theorem Named.later {rest : List Event} (h : Named es i) :
    Named (es ++ rest) i := by
  obtain ⟨instruments, hmem, hi⟩ := h
  exact ⟨instruments, List.mem_append_left _ hmem, hi⟩

private theorem Distinct.earlier {rest : List Event}
    (h : Distinct tokenFor (es ++ rest)) : Distinct tokenFor es :=
  fun i j n hi hj => h i j n hi.later hj.later

private theorem Renewed.earlier {rest : List Event}
    (h : Renewed tokenFor (es ++ rest)) : Renewed tokenFor es :=
  fun pre instruments mid post i hes =>
    h pre instruments mid (post ++ rest) i (by rw [hes]; simp)

/-- A token of the stream, traced to its instrument. -/
private theorem Books.owner (h : Books tokenFor es f)
    (hdistinct : Distinct tokenFor (es ++ [e])) (hi : Named (es ++ [e]) i)
    (hn : tokenFor i = some n) (hmem : n ∈ f.stream.subscribedTokens) :
    Named es i := by
  obtain ⟨j, hj, hjn⟩ := h.known n hmem
  rwa [hdistinct i j n hi hj.later hn hjn]

private theorem books_nil : Books tokenFor [] {} where
  counted := SubscriptionManager.counted_nil
  named _ h := nomatch h
  shaped := ⟨rfl, rfl⟩
  known _ h := absurd h (Finset.notMem_empty _)
  covered h := nomatch h

/-- The stream is told instruments that consumers asked for. -/
private theorem books_told {f' : MarketFeed} {es' : List Event}
    {instruments : List InstrumentIdentifier}
    (hstream : f'.stream = f.stream.subscribe tokenFor instruments)
    (hshaped : f.stream.Shaped) (hticker : f.stream.ticker.isSome = true)
    (hknown : ∀ n ∈ f.stream.subscribedTokens, ∃ i, Named es' i
      ∧ tokenFor i = some n)
    (hcounted : f'.service.subscriptions.Counted)
    (hnamed : ∀ i, f'.Active i → Named es' i)
    (htold : ∀ i ∈ instruments, Named es' i)
    (hcovered : ∀ i n, f'.Active i → tokenFor i = some n →
      n ∈ f.stream.subscribedTokens ∨ i ∈ instruments) :
    Books tokenFor es' f' where
  counted := hcounted
  named := hnamed
  shaped := hstream ▸ hshaped.subscribe hticker
  known n hn := by
    rw [hstream, subscribe_eq] at hn
    rcases Finset.mem_union.1 hn with hold | hnew
    · exact hknown n hold
    · obtain ⟨i, hi, hin⟩ := mem_resolveTokens.1 hnew
      exact ⟨i, htold i hi, hin⟩
  covered _ n hn := by
    rw [hstream, subscribe_eq]
    obtain ⟨i, hi, hin⟩ := mem_resolveTokens.1 hn
    rcases hcovered i n hi hin with hold | hnew
    · exact Finset.mem_union_left _ hold
    · exact Finset.mem_union_right _ (mem_resolveTokens.2 ⟨i, hnew, hin⟩)

/-- An event that leaves the counts alone, and the tokens where the stream
is connected after it. -/
private theorem Books.kept (h : Books tokenFor es f) {f' : MarketFeed}
    (hservice : f'.service.subscriptions = f.service.subscriptions)
    (hshaped : f'.stream.Shaped)
    (htokens : ∀ n ∈ f'.stream.subscribedTokens,
      n ∈ f.stream.subscribedTokens)
    (hconnected : f'.stream.connected = true → f.stream.connected = true
      ∧ f'.stream.subscribedTokens = f.stream.subscribedTokens) :
    Books tokenFor (es ++ [e]) f' where
  counted := hservice ▸ h.counted
  named i hi := by
    unfold Active at hi
    rw [hservice] at hi
    exact (h.named i hi).later
  shaped := hshaped
  known n hn := by
    obtain ⟨i, hi, hin⟩ := h.known n (htokens n hn)
    exact ⟨i, hi.later, hin⟩
  covered hopen := by
    obtain ⟨hold, hsame⟩ := hconnected hopen
    unfold activeTokens
    rw [hservice, hsame]
    exact h.covered hold

private theorem Books.subscribe {instruments : List InstrumentIdentifier}
    (h : Books tokenFor es f) :
    Books tokenFor (es ++ [.subscribe instruments])
      (f.subscribe tokenFor instruments) := by
  obtain ⟨hcounted, hactive, hnew⟩ :=
    h.counted.subscribe instruments
  have hasked : ∀ i ∈ instruments,
      Named (es ++ [.subscribe instruments]) i := fun i hi =>
    ⟨instruments, List.mem_append_right _ (List.mem_singleton.2 rfl), hi⟩
  have hnamed : ∀ i, (f.subscribe tokenFor instruments).Active i →
      Named (es ++ [.subscribe instruments]) i := by
    intro i hi
    rcases (hactive i).1 hi with hold | hasks
    · exact (h.named i hold).later
    · exact hasked i hasks
  cases hconnected : f.stream.connected with
  | false =>
      have hstream : (f.subscribe tokenFor instruments).stream = f.stream :=
        subscribe_disconnected hconnected
      refine ⟨hcounted, hnamed, hstream ▸ h.shaped, fun n hn => ?_,
        fun hopen => ?_⟩
      · rw [hstream] at hn
        obtain ⟨i, hi, hin⟩ := h.known n hn
        exact ⟨i, hi.later, hin⟩
      · rw [hstream, hconnected] at hopen
        cases hopen
  | true =>
      refine books_told (subscribe_connected hconnected) h.shaped
        (h.shaped.ticker hconnected) (fun n hn => ?_) hcounted hnamed
        (fun i hi => hasked i ((hnew i).1 hi).1) fun i n hi hin => ?_
      · obtain ⟨i, hi, hin⟩ := h.known n hn
        exact ⟨i, hi.later, hin⟩
      · by_cases hold : f.Active i
        · exact .inl (h.covered hconnected
            (mem_resolveTokens.2 ⟨i, hold, hin⟩))
        · exact .inr ((hnew i).2
            ⟨((hactive i).1 hi).resolve_left hold, hold⟩)

private theorem Books.unsubscribe {instruments : List InstrumentIdentifier}
    (h : Books tokenFor es f) (hdistinct : Distinct tokenFor es) :
    Books tokenFor (es ++ [.unsubscribe instruments])
      (f.unsubscribe tokenFor instruments) := by
  obtain ⟨hcounted, hactive, hgone⟩ :=
    h.counted.unsubscribe instruments
  have hnamed : ∀ i, (f.unsubscribe tokenFor instruments).Active i →
      Named (es ++ [.unsubscribe instruments]) i :=
    fun i hi => (h.named i ((hactive i).1 hi).1).later
  cases hconnected : f.stream.connected with
  | false =>
      have hstream : (f.unsubscribe tokenFor instruments).stream = f.stream :=
        unsubscribe_disconnected hconnected
      refine ⟨hcounted, hnamed, hstream ▸ h.shaped, fun n hn => ?_,
        fun hopen => ?_⟩
      · rw [hstream] at hn
        obtain ⟨i, hi, hin⟩ := h.known n hn
        exact ⟨i, hi.later, hin⟩
      · rw [hstream, hconnected] at hopen
        cases hopen
  | true =>
      have hstream : (f.unsubscribe tokenFor instruments).stream = _ :=
        unsubscribe_connected hconnected
      refine ⟨hcounted, hnamed, hstream ▸ h.shaped.unsubscribe,
        fun n hn => ?_, fun _ n hn => ?_⟩
      · rw [hstream, unsubscribe_eq] at hn
        obtain ⟨i, hi, hin⟩ := h.known n (Finset.mem_sdiff.1 hn).1
        exact ⟨i, hi.later, hin⟩
      · rw [hstream, unsubscribe_eq]
        obtain ⟨i, hi, hin⟩ := mem_resolveTokens.1 hn
        obtain ⟨hold, hstays⟩ := (hactive i).1 hi
        refine Finset.mem_sdiff.2 ⟨h.covered hconnected
          (mem_resolveTokens.2 ⟨i, hold, hin⟩), fun hdropped => ?_⟩
        obtain ⟨j, hj, hjn⟩ := mem_resolveTokens.1 hdropped
        obtain rfl := hdistinct i j n (h.named i hold)
          (h.named j (hgone j hj)) hin hjn
        exact hstays hj

/-- The whole active set is subscribed again. -/
private theorem books_resubscribed (hshaped : f.stream.Shaped)
    (hticker : f.stream.ticker.isSome = true)
    (hknown : ∀ n ∈ f.stream.subscribedTokens, ∃ i, Named es i
      ∧ tokenFor i = some n)
    (hcounted : f.service.subscriptions.Counted)
    (hnamed : ∀ i, f.Active i → Named es i) :
    Books tokenFor es (f.resubscribeAll tokenFor) := by
  refine books_told resubscribeAll_stream hshaped hticker hknown ?_
    (fun i hi => hnamed i (active_resubscribed.1 hi)) hnamed
    fun i n hi _ => .inr (active_resubscribed.1 hi)
  rw [resubscribeAll_service]
  exact hcounted

private theorem Books.step (h : Books tokenFor es f)
    (hdistinct : Distinct tokenFor (es ++ [e])) :
    Books tokenFor (es ++ [e]) (step tokenFor f e) := by
  have hsame : Books tokenFor (es ++ [e]) f :=
    h.kept rfl h.shaped (fun n => id) fun hopen => ⟨hopen, rfl⟩
  cases e with
  | subscribe instruments => exact h.subscribe
  | unsubscribe instruments => exact h.unsubscribe hdistinct.earlier
  | start =>
      refine h.kept rfl h.shaped.start (fun n hn => ?_) fun hopen => ?_
      · exact start_tokens (s := f.stream) ▸ hn
      · exact ⟨start_connected.symm.trans hopen, start_tokens⟩
  | stop =>
      exact h.kept rfl ⟨rfl, rfl⟩
        (fun n hn => absurd hn (Finset.notMem_empty n)) nofun
  | connect =>
      unfold MarketFeed.step
      dsimp only
      split
      · rename_i hticker
        obtain ⟨hshaped, _, htokens, hticker'⟩ := h.shaped.connect hticker
        exact books_resubscribed hshaped hticker' (htokens ▸ hsame.known)
          hsame.counted hsame.named
      · exact hsame
  | close =>
      unfold MarketFeed.step
      dsimp only
      split
      · rename_i hticker
        exact h.kept rfl (h.shaped.close hticker) (fun n => id) nofun
      · exact hsame
  | reconnect =>
      unfold MarketFeed.step
      dsimp only
      split
      · rename_i hticker
        exact books_resubscribed hsame.shaped hticker hsame.known
          hsame.counted hsame.named
      · exact hsame

private theorem books_run (hdistinct : Distinct tokenFor es) :
    Books tokenFor es (run tokenFor es) := by
  induction es using List.reverseRecOn with
  | nil => exact books_nil
  | append_singleton es e ih =>
      rw [run_snoc]
      exact (ih hdistinct.earlier).step hdistinct

-- ======================================================= stale tokens

private theorem Owed.later (h : Owed tokenFor es i)
    (he : e ≠ .connect ∧ e ≠ .stop) : Owed tokenFor (es ++ [e]) i := by
  obtain ⟨pre, instruments, mid, rfl, hdropped, hmid⟩ := h
  refine ⟨pre, instruments, mid ++ [e], by simp, hdropped, fun x hx => ?_⟩
  rcases List.mem_append.1 hx with hold | hnew
  · exact hmid x hold
  · rw [List.mem_singleton.1 hnew]
    exact he

/-- What the stream keeps while it is disconnected. -/
private theorem kept_step (hclosed : f.stream.connected = false)
    (he : e ≠ .connect ∧ e ≠ .stop) (hn : n ∈ f.stream.subscribedTokens) :
    (step tokenFor f e).stream.connected = false
      ∧ n ∈ (step tokenFor f e).stream.subscribedTokens := by
  cases e with
  | subscribe instruments =>
      show (f.subscribe tokenFor instruments).stream.connected = false ∧ _
        ∈ (f.subscribe tokenFor instruments).stream.subscribedTokens
      rw [subscribe_disconnected hclosed]
      exact ⟨hclosed, hn⟩
  | unsubscribe instruments =>
      show (f.unsubscribe tokenFor instruments).stream.connected = false ∧ _
        ∈ (f.unsubscribe tokenFor instruments).stream.subscribedTokens
      rw [unsubscribe_disconnected hclosed]
      exact ⟨hclosed, hn⟩
  | start =>
      exact ⟨start_connected.trans hclosed, start_tokens (s := f.stream) ▸ hn⟩
  | stop => exact absurd rfl he.2
  | connect => exact absurd rfl he.1
  | close =>
      unfold MarketFeed.step
      dsimp only
      split
      · exact ⟨rfl, hn⟩
      · exact ⟨hclosed, hn⟩
  | reconnect =>
      unfold MarketFeed.step
      dsimp only
      split
      · rw [resubscribeAll_stream, subscribe_eq]
        exact ⟨hclosed, Finset.mem_union_left _ hn⟩
      · exact ⟨hclosed, hn⟩

/-- The token of an instrument dropped while disconnected is still there
when the socket next opens. -/
private theorem kept_run {pre mid : List Event}
    {instruments : List InstrumentIdentifier}
    (hdropped : Dropped tokenFor (run tokenFor pre) instruments i)
    (hmid : ∀ e ∈ mid, e ≠ .connect ∧ e ≠ .stop) (hn : tokenFor i = some n) :
    (run tokenFor (pre ++ .unsubscribe instruments :: mid)).stream.connected
        = false
      ∧ n ∈ (run tokenFor (pre
        ++ .unsubscribe instruments :: mid)).stream.subscribedTokens := by
  induction mid using List.reverseRecOn with
  | nil =>
      obtain ⟨hclosed, _, _, m, hm, hmem⟩ := hdropped
      rw [hn] at hm
      cases hm
      rw [run_snoc]
      exact kept_step hclosed ⟨nofun, nofun⟩ hmem
  | append_singleton mid e ih =>
      obtain ⟨hclosed, hmem⟩ := ih fun x hx =>
        hmid x (List.mem_append_left _ hx)
      rw [← List.cons_append, ← List.append_assoc, run_snoc]
      exact kept_step hclosed (hmid e (List.mem_append_right _
        (List.mem_singleton.2 rfl))) hmem

/-- A token on the socket without a consumer is owed by an unsubscribe
while disconnected. -/
private def Explained (tokenFor : TokenForInstrument) (es : List Event)
    (f : MarketFeed) : Prop :=
  ∀ i n, Named es i → tokenFor i = some n → n ∈ f.stream.subscribedTokens →
    f.Active i ∨ f.stream.connected = false ∧ Owed tokenFor es i

section Explains

variable {instruments : List InstrumentIdentifier}
  (hbooks : Books tokenFor es (run tokenFor es))
  (h : Explained tokenFor es (run tokenFor es))
  (hdistinct : Distinct tokenFor (es ++ [e]))
  (hi : Named (es ++ [e]) i) (hin : tokenFor i = some n)

include hbooks h hdistinct hi hin

/-- A token the stream had before was explained before. -/
private theorem explained_before
    (hn : n ∈ (run tokenFor es).stream.subscribedTokens) :
    (run tokenFor es).Active i
      ∨ (run tokenFor es).stream.connected = false ∧ Owed tokenFor es i :=
  h i n (hbooks.owner hdistinct hi hin hn) hin hn

/-- And still is, unless the socket opens or the stream stops. -/
private theorem explained_since
    (hn : n ∈ (run tokenFor es).stream.subscribedTokens)
    (he : e ≠ .connect ∧ e ≠ .stop) :
    (run tokenFor es).Active i
      ∨ (run tokenFor es).stream.connected = false
        ∧ Owed tokenFor (es ++ [e]) i := by
  refine (explained_before hbooks h hdistinct hi hin hn).imp_right ?_
  rintro ⟨hclosed, howed⟩
  exact ⟨hclosed, howed.later he⟩

omit h in
/-- A token the service is asked for has its consumer. -/
private theorem active_of_token
    (hn : n ∈ (run tokenFor es).activeTokens tokenFor) :
    (run tokenFor es).Active i := by
  obtain ⟨j, hj, hjn⟩ := mem_resolveTokens.1 hn
  have hji := hdistinct i j n hi (hbooks.named j hj).later hin hjn
  rw [hji]
  exact hj

/-- A subscription adds tokens of what it is asked for. -/
private theorem explained_subscribe (he : e = .subscribe instruments)
    (hmem : n ∈ (step tokenFor (run tokenFor es) e).stream.subscribedTokens) :
    (step tokenFor (run tokenFor es) e).Active i
      ∨ (step tokenFor (run tokenFor es) e).stream.connected = false
        ∧ Owed tokenFor (es ++ [e]) i := by
  subst he
  obtain ⟨_, hafter, hnew⟩ := hbooks.counted.subscribe instruments
  cases hconnected : (run tokenFor es).stream.connected with
  | false =>
      have hstream : (step tokenFor (run tokenFor es)
          (.subscribe instruments)).stream = (run tokenFor es).stream :=
        subscribe_disconnected hconnected
      rw [hstream] at hmem ⊢
      exact (explained_since hbooks h hdistinct hi hin hmem
        ⟨nofun, nofun⟩).imp_left fun h => (hafter i).2 (.inl h)
  | true =>
      have hstream : (step tokenFor (run tokenFor es)
          (.subscribe instruments)).stream = _ :=
        subscribe_connected hconnected
      rw [hstream, subscribe_eq] at hmem
      rcases Finset.mem_union.1 hmem with hn | hn
      · rcases explained_before hbooks h hdistinct hi hin hn
          with h | ⟨hclosed, _⟩
        · exact .inl ((hafter i).2 (.inl h))
        · rw [hconnected] at hclosed
          cases hclosed
      · obtain ⟨j, hj, hjn⟩ := mem_resolveTokens.1 hn
        obtain ⟨hasked, _⟩ := (hnew j).1 hj
        have hji := hdistinct i j n hi ⟨instruments, by simp, hasked⟩ hin hjn
        rw [hji]
        exact .inl ((hafter j).2 (.inr hasked))

/-- What is dropped while the socket is closed is owed from then on. -/
private theorem explained_unsubscribe (he : e = .unsubscribe instruments)
    (hmem : n ∈ (step tokenFor (run tokenFor es) e).stream.subscribedTokens) :
    (step tokenFor (run tokenFor es) e).Active i
      ∨ (step tokenFor (run tokenFor es) e).stream.connected = false
        ∧ Owed tokenFor (es ++ [e]) i := by
  subst he
  obtain ⟨_, hafter, _⟩ := hbooks.counted.unsubscribe instruments
  cases hconnected : (run tokenFor es).stream.connected with
  | false =>
      have hstream : (step tokenFor (run tokenFor es)
          (.unsubscribe instruments)).stream = (run tokenFor es).stream :=
        unsubscribe_disconnected hconnected
      rw [hstream] at hmem ⊢
      by_cases hstays : ((run tokenFor es).unsubscribe tokenFor
          instruments).Active i
      · exact .inl hstays
      · rcases explained_since hbooks h hdistinct hi hin hmem ⟨nofun, nofun⟩
          with h | howed
        · exact .inr ⟨hconnected, es, instruments, [], rfl,
            ⟨hconnected, h, hstays, n, hin, hmem⟩, nofun⟩
        · exact .inr howed
  | true =>
      have hstream : (step tokenFor (run tokenFor es)
          (.unsubscribe instruments)).stream = _ :=
        unsubscribe_connected hconnected
      rw [hstream, unsubscribe_eq] at hmem
      obtain ⟨hn, hkept⟩ := Finset.mem_sdiff.1 hmem
      rcases explained_before hbooks h hdistinct hi hin hn
        with h | ⟨hclosed, _⟩
      · exact .inl ((hafter i).2 ⟨h, fun hgone =>
          hkept (mem_resolveTokens.2 ⟨i, hgone, hin⟩)⟩)
      · rw [hconnected] at hclosed
        cases hclosed

/-- When the socket opens nothing is owed any more: whatever was has been
subscribed again. -/
private theorem explained_connect (he : e = .connect)
    (hrenewed : Renewed tokenFor (es ++ [e]))
    (hmem : n ∈ (step tokenFor (run tokenFor es) e).stream.subscribedTokens) :
    (step tokenFor (run tokenFor es) e).Active i := by
  subst he
  unfold step at hmem ⊢
  dsimp only at hmem ⊢
  split
  · rename_i hticker
    rw [if_pos hticker, mem_resubscribed] at hmem
    refine active_resubscribed.2 ?_
    rcases hmem with hn | hn
    · rcases explained_before hbooks h hdistinct hi hin hn
        with h | ⟨_, pre, instruments, mid, hes, hdropped, hmid⟩
      · exact h
      · show (run tokenFor es).Active i
        rw [hes]
        exact hrenewed pre instruments mid [] i (by rw [hes]) hdropped hmid
    · exact active_of_token hbooks hdistinct hi hin hn
  · rename_i hticker
    rw [if_neg hticker] at hmem
    exact absurd (ticker_of_token hbooks.shaped hmem) hticker

end Explains

private theorem explained_step
    (hbooks : Books tokenFor es (run tokenFor es))
    (h : Explained tokenFor es (run tokenFor es))
    (hdistinct : Distinct tokenFor (es ++ [e]))
    (hrenewed : Renewed tokenFor (es ++ [e])) :
    Explained tokenFor (es ++ [e]) (run tokenFor (es ++ [e])) := by
  rw [run_snoc]
  intro i n hi hin hmem
  cases e with
  | subscribe instruments =>
      exact explained_subscribe hbooks h hdistinct hi hin rfl hmem
  | unsubscribe instruments =>
      exact explained_unsubscribe hbooks h hdistinct hi hin rfl hmem
  | connect =>
      exact .inl (explained_connect hbooks h hdistinct hi hin rfl hrenewed hmem)
  | stop => exact absurd hmem (Finset.notMem_empty n)
  | start =>
      have hn : n ∈ (run tokenFor es).stream.subscribedTokens :=
        start_tokens (s := (run tokenFor es).stream) ▸ hmem
      refine (explained_since hbooks h hdistinct hi hin hn
        ⟨nofun, nofun⟩).imp_right ?_
      rintro ⟨hclosed, howed⟩
      exact ⟨start_connected.trans hclosed, howed⟩
  | close =>
      unfold step at hmem ⊢
      dsimp only at hmem ⊢
      split
      · rename_i hticker
        rw [if_pos hticker] at hmem
        exact (explained_since hbooks h hdistinct hi hin hmem
          ⟨nofun, nofun⟩).imp_right fun howed => ⟨rfl, howed.2⟩
      · rename_i hticker
        rw [if_neg hticker] at hmem
        exact explained_since hbooks h hdistinct hi hin hmem ⟨nofun, nofun⟩
  | reconnect =>
      unfold step at hmem ⊢
      dsimp only at hmem ⊢
      split
      · rename_i hticker
        rw [if_pos hticker, mem_resubscribed] at hmem
        rw [active_resubscribed, resubscribeAll_stream, subscribe_eq]
        rcases hmem with hn | hn
        · exact explained_since hbooks h hdistinct hi hin hn ⟨nofun, nofun⟩
        · exact .inl (active_of_token hbooks hdistinct hi hin hn)
      · rename_i hticker
        rw [if_neg hticker] at hmem
        exact explained_since hbooks h hdistinct hi hin hmem ⟨nofun, nofun⟩

private theorem explained_run (hdistinct : Distinct tokenFor es)
    (hrenewed : Renewed tokenFor es) :
    Explained tokenFor es (run tokenFor es) := by
  induction es using List.reverseRecOn with
  | nil => exact fun _ _ _ _ h => absurd h (Finset.notMem_empty _)
  | append_singleton es e ih =>
      exact explained_step (books_run hdistinct.earlier)
        (ih hdistinct.earlier hrenewed.earlier) hdistinct hrenewed

/-- Books with every token explained agree. -/
private theorem Books.agrees (h : Books tokenFor es f)
    (hexplained : Explained tokenFor es f) : Agrees tokenFor f := by
  intro ticker hticker tokens htokens
  have hsocket : ticker.socket = if f.stream.connected = true then
      some f.stream.subscribedTokens else none := by
    have hshaped := h.shaped
    unfold Shaped at hshaped
    rw [show f.stream.ticker = some ticker from hticker] at hshaped
    exact hshaped
  rw [show ticker.socket = some tokens from htokens] at hsocket
  split at hsocket
  · rename_i hopen
    cases hsocket
    refine Finset.Subset.antisymm (fun n hn => ?_) (h.covered hopen)
    obtain ⟨i, hi, hin⟩ := h.known n hn
    rcases hexplained i n hi hin hn with hactive | ⟨hclosed, _⟩
    · exact mem_resolveTokens.2 ⟨i, hactive, hin⟩
    · rw [hopen] at hclosed
      cases hclosed
  · cases hsocket

/-- A connect puts every token the stream kept on the socket. -/
private theorem active_of_connect (hshaped : f.stream.Shaped)
    (hn : n ∈ f.stream.subscribedTokens)
    (hagree : Agrees tokenFor (step tokenFor f .connect)) :
    n ∈ f.activeTokens tokenFor := by
  have hticker := ticker_of_token hshaped hn
  obtain ⟨hopened, hopen, htokens, hticker'⟩ := hshaped.connect hticker
  obtain ⟨g, hg⟩ : ∃ g : MarketFeed,
      g = { f with stream := f.stream.opened.handleConnect } := ⟨_, rfl⟩
  have hstream : g.stream = f.stream.opened.handleConnect := by rw [hg]
  have hstep : step tokenFor f .connect = g.resubscribeAll tokenFor :=
    (if_pos hticker).trans (by rw [hg])
  rw [← hstream] at hopened hopen htokens hticker'
  have hafter : (g.resubscribeAll tokenFor).stream.Shaped := by
    rw [resubscribeAll_stream]
    exact hopened.subscribe hticker'
  have hconnected : (g.resubscribeAll tokenFor).stream.connected = true := by
    rw [resubscribeAll_stream, subscribe_eq]
    exact hopen
  obtain ⟨ticker, hsome, hsocket⟩ := hafter.socket hconnected
  rw [hstep] at hagree
  have hall := hagree ticker hsome _ hsocket
  have hmem : n ∈ (g.resubscribeAll tokenFor).stream.subscribedTokens :=
    mem_resubscribed.2 (.inl (htokens ▸ hn))
  rw [hall] at hmem
  unfold activeTokens at hmem ⊢
  rw [resubscribeAll_service, hg] at hmem
  exact hmem

/-- The books agree along a run exactly if every instrument dropped while
the socket was closed is held again when it next opens. -/
theorem booksAgree_iff (hdistinct : Distinct tokenFor es) :
    BooksAgree tokenFor es ↔ Renewed tokenFor es := by
  constructor
  · intro hagree pre instruments mid post i hes hdropped hmid
    subst hes
    obtain ⟨_, hheld, _, n, hn, _⟩ := id hdropped
    obtain ⟨_, hmem⟩ := kept_run hdropped hmid hn
    have hbooks := books_run hdistinct.earlier
    have hopened := hagree (pre ++ .unsubscribe instruments :: mid
      ++ [.connect]) ⟨post, by simp⟩
    rw [run_snoc] at hopened
    obtain ⟨j, hj, hjn⟩ := mem_resolveTokens.1
      (active_of_connect hbooks.shaped hmem hopened)
    have hdistinct' : Distinct tokenFor
        (pre ++ .unsubscribe instruments :: mid) := hdistinct.earlier
    have hpre : Distinct tokenFor pre := hdistinct'.earlier
    have hji := hdistinct' i j n ((books_run hpre).named i hheld).later
      (hbooks.named j hj) hn hjn
    rw [hji]
    exact hj
  · intro hrenewed pre ⟨post, hpre⟩
    subst hpre
    exact (books_run hdistinct.earlier).agrees
      (explained_run hdistinct.earlier hrenewed.earlier)

-- ============================================================= samples

/-- The two legs of the sample runs. -/
def sampleCall : InstrumentIdentifier := ⟨.nfo, "CE"⟩
def samplePut : InstrumentIdentifier := ⟨.nfo, "PE"⟩

/-- Their tokens. -/
def sampleToken : TokenForInstrument := fun i =>
  if i = sampleCall then some 1 else if i = samplePut then some 2 else none

private theorem sampleToken_distinct : Distinct sampleToken es := by
  intro i j n _ _ hi hj
  unfold sampleToken at hi hj
  split_ifs at hi hj <;> simp_all <;> omega

/-- A leg unsubscribed between a close and the next connect stays on the
socket. -/
theorem stale_token :
    ¬ ∀ (tokenFor : TokenForInstrument) (es : List Event),
      Distinct tokenFor es → BooksAgree tokenFor es := by
  intro h
  have hagree := h sampleToken
    [.subscribe [sampleCall], .start, .connect, .close,
      .unsubscribe [sampleCall], .connect] sampleToken_distinct _
    (List.prefix_refl _)
  revert hagree
  decide

/-- Legs subscribed while connected, dropped while the socket is closed,
and held again by the next connect. -/
def renewedLegs : List Event :=
  [.subscribe [sampleCall], .start, .connect, .subscribe [samplePut], .close,
    .unsubscribe [samplePut], .subscribe [samplePut, samplePut], .connect,
    .unsubscribe [samplePut], .reconnect, .unsubscribe [samplePut]]

theorem booksAgree_renewed :
    BooksAgree sampleToken renewedLegs ∧ Renewed sampleToken renewedLegs := by
  have hall : ∀ k < renewedLegs.length + 1,
      Agrees sampleToken (run sampleToken (renewedLegs.take k)) := by decide
  have hagree : BooksAgree sampleToken renewedLegs := by
    intro pre hpre
    have htake := List.prefix_iff_eq_take.1 hpre
    rw [htake]
    exact hall pre.length (Nat.lt_succ_of_le hpre.length_le)
  exact ⟨hagree, (booksAgree_iff sampleToken_distinct).1 hagree⟩

end MarketFeed

end AlgoPlatform
