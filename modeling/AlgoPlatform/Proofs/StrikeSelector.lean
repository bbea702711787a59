/-
The straddle a selection returns is listed, and a listed one is returned.

A look-up is served the latest successful fetch, so what it finds is a row
of that (`findContract_ok`), and `to_broker_instrument` leaves in the
contract what the row was matched by: of the four things the selector
validates only the exchange can differ (`mismatches_found`). Where the
day's dump is loaded the three look-ups read the same rows, and there the
expiries that are listed cover every contract that can be found
(`expiry_listed`): the check of the expiry refuses nothing that the
look-up of a contract would find.
-/
import AlgoPlatform.Model.Runs
import AlgoPlatform.Model.StrikeSelector
import AlgoPlatform.Proofs.AtmWindow
import AlgoPlatform.Proofs.InstrumentDump

open Basis

namespace AlgoPlatform

-- ============================================================= look-ups

variable {rows : List InstrumentRow} {row : InstrumentRow}
  {query : OptionQuery} {contract : KiteInstrument}

theorem isFor_iff : row.isFor query ↔ row.For query.underlying query.expiry
    ∧ row.instrumentType = query.optionType.value
    ∧ row.strike.filter (· ≠ 0) = some query.strike :=
  decide_eq_true_iff

/-- The caches' scan is this one without its errors. -/
theorem findIn_eq : findIn rows query = (findContract rows query).toOption := by
  unfold findIn findContract InstrumentRow.isFor
  cases rows.find? _ with
  | none => rfl
  | some row => cases h : toBrokerInstrument row <;> simp [h, Except.toOption]

/-- A contract that is found is a row that matches. -/
theorem findContract_ok (h : findContract rows query = .ok contract) :
    ∃ row ∈ rows, row.isFor query
      ∧ toBrokerInstrument row = some contract := by
  unfold findContract at h
  cases hfind : rows.find? (·.isFor query) with
  | none =>
      rw [hfind] at h
      cases h
  | some row =>
      rw [hfind] at h
      have hrow : row.isFor query = true :=
        List.find?_some (p := fun row : InstrumentRow => row.isFor query) hfind
      cases hmapped : toBrokerInstrument row with
      | none => simp [hmapped] at h
      | some mapped =>
          simp only [hmapped, Except.ok.injEq] at h
          exact ⟨row, List.mem_of_find?_eq_some hfind, hrow, h ▸ hmapped⟩

/-- What a contract keeps of its row; its lot is never empty. -/
theorem toBrokerInstrument_keeps (h : toBrokerInstrument row = some contract) :
    contract.expiry = row.expiry ∧ contract.strike = row.strike.filter (· ≠ 0)
      ∧ (contract.optionType = if row.instrumentType = "CE" then some .ce
        else if row.instrumentType = "PE" then some .pe else none)
      ∧ 0 < contract.lotSize := by
  unfold toBrokerInstrument at h
  simp only [Option.bind_eq_bind, Option.bind_eq_some_iff] at h
  obtain ⟨token, -, value, -, exchange, -, symbol, -, h⟩ := h
  cases h
  refine ⟨rfl, rfl, rfl, ?_⟩
  dsimp only
  split
  · exact Nat.one_pos
  · omega

/-- So the contract has what its row was matched by. -/
theorem found_matches (hrow : row.isFor query)
    (h : toBrokerInstrument row = some contract) :
    contract.expiry = some query.expiry
      ∧ contract.strike = some query.strike
      ∧ contract.optionType = some query.optionType := by
  obtain ⟨hexpiry, hstrike, htype, -⟩ := toBrokerInstrument_keeps h
  obtain ⟨hfor, hvalue, hprice⟩ := isFor_iff.1 hrow
  refine ⟨hexpiry.trans hfor.2, hstrike.trans hprice, htype.trans ?_⟩
  rw [hvalue]
  cases query.optionType with
  | ce => rfl
  | pe => rfl

/-- Only the exchange of a contract that was found can differ. -/
theorem mismatches_found (h : findContract rows query = .ok contract) :
    mismatches contract query = if contract.exchange = query.exchange then []
      else [.exchange query.exchange contract.exchange] := by
  obtain ⟨row, -, hrow, hmapped⟩ := findContract_ok h
  obtain ⟨hexpiry, hstrike, htype⟩ := found_matches hrow hmapped
  unfold mismatches
  rw [if_pos hstrike, if_pos hexpiry, if_pos htype]
  rfl

theorem mem_listedExpiries {underlying : String} {expiry : Date} :
    expiry ∈ listedExpiries rows underlying
      ↔ ∃ row ∈ rows, row.isOptionOf underlying
        ∧ row.expiry = some expiry := by
  unfold listedExpiries
  rw [List.mem_insertionSort, List.mem_dedup, List.mem_filterMap]
  simp only [List.mem_filter, and_assoc]

/-- The expiry of every contract that can be looked up is listed. -/
theorem expiry_listed (hrow : row ∈ rows) (h : row.isFor query) :
    query.expiry ∈ listedExpiries rows query.underlying := by
  obtain ⟨hfor, hvalue, -⟩ := isFor_iff.1 h
  refine mem_listedExpiries.2 ⟨row, hrow, decide_eq_true ⟨hfor.1, ?_⟩, hfor.2⟩
  rw [hvalue]
  cases query.optionType with
  | ce => exact Or.inl rfl
  | pe => exact Or.inr rfl

/-- Where the expiry is not listed no contract is found, at any strike. -/
theorem unlisted_not_found
    (h : query.expiry ∉ listedExpiries rows query.underlying) :
    findContract rows query = .error (.instrumentNotFound query) := by
  unfold findContract
  cases hfind : rows.find? (·.isFor query) with
  | none => rfl
  | some row =>
      have hrow : row.isFor query = true :=
        List.find?_some (p := fun row : InstrumentRow => row.isFor query) hfind
      exact absurd (expiry_listed (List.mem_of_find?_eq_some hfind) hrow) h

-- ======================================================= served look-ups

namespace InstrumentDump

variable {cfg : KiteReadConfig} {d d' : InstrumentDump}
  {entries : List DumpEntry} {exchange : Exchange} {meets : LookupMeets}

/-- A look-up scans the rows `_instrument_rows` answers. -/
theorem findOptionContract_eq :
    d.findOptionContract cfg query meets
      = ((d.perform cfg (meets.call query.exchange)).1.answered.mapError
          LookupError.broker >>= (findContract · query),
        (d.perform cfg (meets.call query.exchange)).2) := by
  have hperform : d.perform cfg (meets.call query.exchange)
      = d.instrumentRows cfg (meets.call query.exchange) := rfl
  unfold findOptionContract
  rw [hperform]
  cases h : (d.instrumentRows cfg (meets.call query.exchange)).1.answered with
  | ok rows => simp only [h]; rfl
  | error e => simp only [h]; rfl

theorem listOptionExpiries_eq {underlying : String} :
    d.listOptionExpiries cfg underlying exchange meets
      = ((d.perform cfg (meets.call exchange)).1.answered.mapError
          LookupError.broker >>= fun rows =>
            pure (listedExpiries rows underlying),
        (d.perform cfg (meets.call exchange)).2) := by
  have hperform : d.perform cfg (meets.call exchange)
      = d.instrumentRows cfg (meets.call exchange) := rfl
  unfold listOptionExpiries
  rw [hperform]
  cases h : (d.instrumentRows cfg (meets.call exchange)).1.answered with
  | ok rows => simp only [h]; rfl
  | error e => simp only [h]; rfl

theorem findOptionContract_ok
    (h : d.findOptionContract cfg query meets = (.ok contract, d')) :
    d' = (d.perform cfg (meets.call query.exchange)).2 ∧ ∃ rows,
      (d.perform cfg (meets.call query.exchange)).1.answered = .ok rows
        ∧ findContract rows query = .ok contract := by
  rw [findOptionContract_eq] at h
  obtain ⟨hfound, hafter⟩ := Prod.ext_iff.1 h
  refine ⟨hafter.symm, ?_⟩
  cases hanswered :
      (d.perform cfg (meets.call query.exchange)).1.answered with
  | ok rows =>
      rw [hanswered] at hfound
      exact ⟨rows, rfl, hfound⟩
  | error e =>
      rw [hanswered] at hfound
      cases hfound

/-- The rows of the exchange were loaded on the day. -/
def Loaded (d : InstrumentDump) (exchange : Exchange) (day : Date)
    (rows : List InstrumentRow) : Prop :=
  d.cache.get (toKiteExchange exchange) = some rows
    ∧ d.cacheDate.get (toKiteExchange exchange) = some day

theorem Reflects.loaded {day : Date} (h : Reflects d entries)
    (hlatest : latestFetch entries exchange = some (day, rows)) :
    d.Loaded exchange day rows := by
  obtain ⟨hrows, hday⟩ := h exchange
  rw [hlatest] at hrows hday
  exact ⟨hrows, hday⟩

/-- A look-up of that day reads them, and loads nothing. -/
theorem Loaded.instrumentRows
    (h : d.Loaded exchange meets.today rows) :
    d.instrumentRows cfg (meets.call exchange)
      = (⟨meets.call exchange, none, .ok rows⟩, d) := by
  unfold InstrumentDump.instrumentRows
  dsimp only [LookupMeets.call]
  rw [h.1]
  exact if_pos h.2

theorem Loaded.listOptionExpiries {underlying : String}
    (h : d.Loaded exchange meets.today rows) :
    d.listOptionExpiries cfg underlying exchange meets
      = (.ok (listedExpiries rows underlying), d) := by
  unfold InstrumentDump.listOptionExpiries
  rw [h.instrumentRows]

theorem Loaded.findOptionContract
    (h : d.Loaded query.exchange meets.today rows) :
    d.findOptionContract cfg query meets = (findContract rows query, d) := by
  unfold InstrumentDump.findOptionContract
  rw [h.instrumentRows]

end InstrumentDump

-- ============================================================ selection

namespace StrikeSelector

open InstrumentDump ConfigExpiryService

variable {sel : StrikeSelector} {d d' : InstrumentDump} {instrument : String}
  {spec : TradedConfig} {asOf : Day} {spotLtp : ℚ}

theorem currentExpiry_ok {expiry : Date} {meets : LookupMeets}
    (h : sel.currentExpiry d spec instrument asOf meets = (.ok expiry, d')) :
    d' = (d.perform sel.cfg (meets.call spec.exchange)).2 ∧ ∃ computed,
      getCurrentWeeklyExpiry sel.holidays spec.toInstrumentConfig asOf
        = .ok computed ∧ expiry = computed.date := by
  unfold currentExpiry at h
  cases hcomputed : getCurrentWeeklyExpiry sel.holidays
      spec.toInstrumentConfig asOf with
  | error e =>
      rw [hcomputed] at h
      cases (Prod.ext_iff.1 h).1
  | ok computed =>
      rw [hcomputed, listOptionExpiries_eq] at h
      dsimp only at h
      cases hanswered :
          (d.perform sel.cfg (meets.call spec.exchange)).1.answered with
      | error e =>
          rw [hanswered] at h
          cases (Prod.ext_iff.1 h).1
      | ok rows =>
          rw [hanswered] at h
          change (if computed.date
            ∈ listedExpiries rows (spec.underlying instrument) then _
              else _) = _ at h
          split at h
          · obtain ⟨hexpiry, hafter⟩ := Prod.ext_iff.1 h
            cases hexpiry
            exact ⟨hafter.symm, computed, rfl, rfl⟩
          · cases (Prod.ext_iff.1 h).1

theorem resolveContract_ok {meets : LookupMeets}
    (h : sel.resolveContract d instrument query meets = (.ok contract, d')) :
    d' = (d.perform sel.cfg (meets.call query.exchange)).2 ∧ ∃ rows,
      (d.perform sel.cfg (meets.call query.exchange)).1.answered = .ok rows
        ∧ findContract rows query = .ok contract
        ∧ contract.exchange = query.exchange := by
  unfold resolveContract at h
  cases hlookup : d.findOptionContract sel.cfg query meets with
  | mk found after =>
      rw [hlookup] at h
      cases found with
      | error e =>
          dsimp only at h
          split at h <;> cases (Prod.ext_iff.1 h).1
      | ok resolved =>
          obtain ⟨rfl, rows, hanswered, hfound⟩ := findOptionContract_ok hlookup
          dsimp only at h
          rw [mismatches_found hfound] at h
          split at h
          · rename_i hnone
            obtain ⟨hcontract, hafter⟩ := Prod.ext_iff.1 h
            cases hcontract
            refine ⟨hafter.symm, rows, hanswered, hfound, ?_⟩
            by_contra hother
            rw [if_neg hother] at hnone
            cases hnone
          · cases (Prod.ext_iff.1 h).1

/-- What a selection that returns has gone through. -/
theorem select_ok {s : SelectedStraddle} {meets : SelectMeets}
    (h : sel.select d instrument spotLtp asOf meets = (.ok s, d')) :
    ∃ spec expiry d₁ d₂, sel.configs instrument = some spec
      ∧ computeAtmStrike spotLtp spec.strikeInterval = .ok s.atmStrike
      ∧ sel.currentExpiry d spec instrument asOf meets.expiries
        = (.ok expiry, d₁)
      ∧ sel.resolveContract d₁ instrument
          (legQuery spec instrument expiry s.atmStrike .ce) meets.call
        = (.ok s.call, d₂)
      ∧ sel.resolveContract d₂ instrument
          (legQuery spec instrument expiry s.atmStrike .pe) meets.put
        = (.ok s.put, d')
      ∧ s.instrument = instrument ∧ s.exchange = spec.exchange
      ∧ s.spotLtp = spotLtp ∧ s.strikeInterval = spec.strikeInterval
      ∧ s.expiry = expiry := by
  unfold select at h
  cases hspec : sel.configs instrument with
  | none =>
      rw [hspec] at h
      cases (Prod.ext_iff.1 h).1
  | some spec =>
  rw [hspec] at h
  dsimp only at h
  cases hatm : computeAtmStrike spotLtp spec.strikeInterval with
  | error e =>
      rw [hatm] at h
      cases (Prod.ext_iff.1 h).1
  | ok atmStrike =>
  rw [hatm] at h
  dsimp only at h
  rcases hexpiry : sel.currentExpiry d spec instrument asOf meets.expiries
    with ⟨e | expiry, d₁⟩
  · rw [hexpiry] at h
    cases (Prod.ext_iff.1 h).1
  rw [hexpiry] at h
  dsimp only at h
  rcases hcall : sel.resolveContract d₁ instrument
    (legQuery spec instrument expiry atmStrike .ce) meets.call
    with ⟨e | call, d₂⟩
  · rw [hcall] at h
    cases (Prod.ext_iff.1 h).1
  rw [hcall] at h
  dsimp only at h
  rcases hput : sel.resolveContract d₂ instrument
    (legQuery spec instrument expiry atmStrike .pe) meets.put
    with ⟨e | put, d₃⟩
  · rw [hput] at h
    cases (Prod.ext_iff.1 h).1
  rw [hput] at h
  cases h
  exact ⟨spec, expiry, d₁, d₂, rfl, hatm, hexpiry, hcall, hput, rfl, rfl, rfl,
    rfl, rfl⟩

-- ================================================== on a day that is loaded

/-- Where the day's rows are loaded, a contract is resolved exactly if
they have it on the exchange that was asked for. -/
theorem resolveContract_loaded {meets : LookupMeets}
    (h : d.Loaded query.exchange meets.today rows) :
    (sel.resolveContract d instrument query meets).2 = d
      ∧ ∀ contract, (sel.resolveContract d instrument query meets).1
          = .ok contract
        ↔ findContract rows query = .ok contract
          ∧ contract.exchange = query.exchange := by
  unfold resolveContract
  rw [h.findOptionContract]
  cases hfound : findContract rows query with
  | error e =>
      dsimp only
      split <;> exact ⟨rfl, fun contract =>
        ⟨fun hok => (nomatch hok), fun hok => (nomatch hok.1)⟩⟩
  | ok resolved =>
      dsimp only
      rw [mismatches_found hfound]
      by_cases hexchange : resolved.exchange = query.exchange
      · rw [if_pos hexchange]
        refine ⟨rfl, fun contract => ⟨fun hok => ?_, fun ⟨hok, _⟩ => ?_⟩⟩
        · cases hok
          exact ⟨rfl, hexchange⟩
        · cases hok
          rfl
      · rw [if_neg hexchange]
        refine ⟨rfl, fun contract => ⟨fun hok => (nomatch hok), fun hok => ?_⟩⟩
        cases hok.1
        exact absurd hok.2 hexchange

/-- And the expiry exactly if it is among those they list. -/
theorem currentExpiry_loaded {meets : LookupMeets}
    (h : d.Loaded spec.exchange meets.today rows) :
    (sel.currentExpiry d spec instrument asOf meets).2 = d
      ∧ ∀ expiry, (sel.currentExpiry d spec instrument asOf meets).1
          = .ok expiry
        ↔ (∃ computed, getCurrentWeeklyExpiry sel.holidays
            spec.toInstrumentConfig asOf = .ok computed
              ∧ expiry = computed.date)
          ∧ expiry ∈ listedExpiries rows (spec.underlying instrument) := by
  unfold currentExpiry
  cases hcomputed : getCurrentWeeklyExpiry sel.holidays
      spec.toInstrumentConfig asOf with
  | error e => exact ⟨rfl, fun expiry => ⟨fun hok => (nomatch hok),
      fun ⟨⟨_, hok, _⟩, _⟩ => (nomatch hok)⟩⟩
  | ok computed =>
      dsimp only
      rw [h.listOptionExpiries]
      dsimp only
      by_cases hlisted : computed.date
          ∈ listedExpiries rows (spec.underlying instrument)
      · rw [if_pos hlisted]
        refine ⟨rfl, fun expiry => ⟨fun hok => ?_, fun hok => ?_⟩⟩
        · cases hok
          exact ⟨⟨computed, rfl, rfl⟩, hlisted⟩
        · obtain ⟨⟨_, hsame, rfl⟩, -⟩ := hok
          cases hsame
          rfl
      · rw [if_neg hlisted]
        refine ⟨rfl, fun expiry => ⟨fun hok => (nomatch hok), fun hok => ?_⟩⟩
        obtain ⟨⟨_, hsame, rfl⟩, hmem⟩ := hok
        cases hsame
        exact absurd hmem hlisted

/-- An expiry that is refused is not among them. -/
theorem currentExpiry_refuses {meets : LookupMeets} {expiry : Date}
    {listed : List Date} (h : d.Loaded spec.exchange meets.today rows)
    (hrefused : sel.currentExpiry d spec instrument asOf meets
      = (.error (.expiryNotListed expiry listed), d')) :
    expiry ∉ listedExpiries rows (spec.underlying instrument) := by
  unfold currentExpiry at hrefused
  split at hrefused
  · cases (Prod.ext_iff.1 hrefused).1
  · rw [h.listOptionExpiries] at hrefused
    dsimp only at hrefused
    split at hrefused
    · cases (Prod.ext_iff.1 hrefused).1
    · rename_i hlisted
      cases hrefused
      exact hlisted

/-- Resolving a contract refuses no expiry as unlisted. -/
theorem resolveContract_error {meets : LookupMeets} {e : SelectError}
    (h : sel.resolveContract d instrument query meets = (.error e, d'))
    (expiry : Date) (listed : List Date) :
    e ≠ .expiryNotListed expiry listed := by
  rintro rfl
  unfold resolveContract at h
  split at h
  · split at h <;> cases (Prod.ext_iff.1 h).1
  · split at h <;> cases (Prod.ext_iff.1 h).1

variable {meets : SelectMeets}

/-- Every look-up of the selection reads this day. -/
def OneDay (meets : SelectMeets) (today : Date) : Prop :=
  meets.expiries.today = today ∧ meets.call.today = today
    ∧ meets.put.today = today

/-- The day's rows are what each look-up of the selection reads. -/
structure LoadedFor (d : InstrumentDump) (meets : SelectMeets)
    (exchange : Exchange) (rows : List InstrumentRow) : Prop where
  expiries : d.Loaded exchange meets.expiries.today rows
  call : d.Loaded exchange meets.call.today rows
  put : d.Loaded exchange meets.put.today rows

theorem loadedFor {entries : List DumpEntry} {exchange : Exchange}
    {today : Date} (h : Reflects d entries)
    (hlatest : latestFetch entries exchange = some (today, rows))
    (hday : OneDay meets today) : LoadedFor d meets exchange rows := by
  obtain ⟨hexpiries, hcall, hput⟩ := hday
  have hloaded : d.Loaded exchange today rows := h.loaded hlatest
  exact ⟨hexpiries ▸ hloaded, hcall ▸ hloaded, hput ▸ hloaded⟩

/-- The rows have the contract, on the exchange that is asked for. -/
def Offers (rows : List InstrumentRow) (query : OptionQuery) : Prop :=
  ∃ contract, findContract rows query = .ok contract
    ∧ contract.exchange = query.exchange

/-- A selection that was served from the day's dump loads nothing, and
the expiry it refuses is one that the rows do not list. -/
theorem select_loaded (hspec : sel.configs instrument = some spec)
    (h : LoadedFor d meets spec.exchange rows) :
    (sel.select d instrument spotLtp asOf meets).2 = d
      ∧ ∀ expiry listed, (sel.select d instrument spotLtp asOf meets).1
          = .error (.expiryNotListed expiry listed) →
        expiry ∉ listedExpiries rows (spec.underlying instrument) := by
  unfold select
  rw [hspec]
  dsimp only
  cases computeAtmStrike spotLtp spec.strikeInterval with
  | error e => exact ⟨rfl, fun _ _ herror => (nomatch herror)⟩
  | ok atmStrike =>
  dsimp only
  have hkept : (sel.currentExpiry d spec instrument asOf meets.expiries).2 = d :=
    (currentExpiry_loaded h.expiries).1
  rcases hexpiry : sel.currentExpiry d spec instrument asOf meets.expiries
    with ⟨e | expiry, d₁⟩
  · rw [hexpiry] at hkept
    refine ⟨hkept, fun expiry listed herror => ?_⟩
    obtain rfl : e = .expiryNotListed expiry listed := Except.error.inj herror
    exact currentExpiry_refuses h.expiries hexpiry
  obtain rfl : d₁ = d := by rw [hexpiry] at hkept; exact hkept
  dsimp only
  have hcall : (sel.resolveContract d₁ instrument
      (legQuery spec instrument expiry atmStrike .ce) meets.call).2 = d₁ :=
    (resolveContract_loaded h.call).1
  rcases hleg : sel.resolveContract d₁ instrument
    (legQuery spec instrument expiry atmStrike .ce) meets.call
    with ⟨e | call, d₂⟩
  · rw [hleg] at hcall
    refine ⟨hcall, fun expiry listed herror => ?_⟩
    exact (resolveContract_error hleg _ _ (Except.error.inj herror)).elim
  obtain rfl : d₂ = d₁ := by rw [hleg] at hcall; exact hcall
  dsimp only
  have hput : (sel.resolveContract d₂ instrument
      (legQuery spec instrument expiry atmStrike .pe) meets.put).2 = d₂ :=
    (resolveContract_loaded h.put).1
  rcases hleg' : sel.resolveContract d₂ instrument
    (legQuery spec instrument expiry atmStrike .pe) meets.put
    with ⟨e | put, d₃⟩
  · rw [hleg'] at hput
    refine ⟨hput, fun expiry listed herror => ?_⟩
    exact (resolveContract_error hleg' _ _ (Except.error.inj herror)).elim
  rw [hleg'] at hput
  exact ⟨hput, fun _ _ herror => (nomatch herror)⟩

/-- There it returns exactly if the rows have both contracts of the
computed expiry at the ATM strike. -/
theorem select_returns (hspec : sel.configs instrument = some spec)
    (h : LoadedFor d meets spec.exchange rows) :
    (∃ s, (sel.select d instrument spotLtp asOf meets).1 = .ok s)
      ↔ ∃ atmStrike computed,
        computeAtmStrike spotLtp spec.strikeInterval = .ok atmStrike
          ∧ getCurrentWeeklyExpiry sel.holidays spec.toInstrumentConfig asOf
            = .ok computed
          ∧ ∀ optionType, Offers rows
            (legQuery spec instrument computed.date atmStrike optionType) := by
  constructor
  · intro ⟨s, hs⟩
    obtain ⟨spec', expiry, d₁, d₂, hspec', hatm, hexpiry, hcall, hput, -⟩ :=
      select_ok (Prod.ext hs rfl)
    obtain rfl : spec = spec' := Option.some.inj (hspec.symm.trans hspec')
    obtain ⟨-, computed, hcomputed, rfl⟩ := currentExpiry_ok hexpiry
    obtain rfl : d₁ = d := (congrArg Prod.snd hexpiry).symm.trans
      (currentExpiry_loaded h.expiries).1
    obtain rfl : d₂ = d₁ := (congrArg Prod.snd hcall).symm.trans
      (resolveContract_loaded h.call).1
    refine ⟨s.atmStrike, computed, hatm, hcomputed, fun optionType => ?_⟩
    cases optionType with
    | ce => exact ⟨s.call, ((resolveContract_loaded h.call).2 _).1
        (congrArg Prod.fst hcall)⟩
    | pe => exact ⟨s.put, ((resolveContract_loaded h.put).2 _).1
        (congrArg Prod.fst hput)⟩
  · intro ⟨atmStrike, computed, hatm, hcomputed, hoffers⟩
    obtain ⟨call, hcall⟩ := hoffers .ce
    obtain ⟨put, hput⟩ := hoffers .pe
    -- the row of a contract lists the expiry
    obtain ⟨row, hrow, hfor, -⟩ := findContract_ok hcall.1
    have hexpiry : sel.currentExpiry d spec instrument asOf meets.expiries
        = (.ok computed.date, d) :=
      Prod.ext (((currentExpiry_loaded h.expiries).2 _).2
        ⟨⟨computed, hcomputed, rfl⟩, expiry_listed hrow hfor⟩)
        (currentExpiry_loaded h.expiries).1
    have hresolved : sel.resolveContract d instrument
        (legQuery spec instrument computed.date atmStrike .ce) meets.call
        = (.ok call, d) :=
      Prod.ext (((resolveContract_loaded h.call).2 _).2 hcall)
        (resolveContract_loaded h.call).1
    have hresolved' : sel.resolveContract d instrument
        (legQuery spec instrument computed.date atmStrike .pe) meets.put
        = (.ok put, d) :=
      Prod.ext (((resolveContract_loaded h.put).2 _).2 hput)
        (resolveContract_loaded h.put).1
    unfold select
    simp only [hspec, hatm, hexpiry, hresolved, hresolved']
    exact ⟨_, rfl⟩

-- ======================================================== over any history

/-- The dumps the look-ups of a selection ask for, in their order. -/
def selectCalls (meets : SelectMeets) (exchange : Exchange) : List DumpCall :=
  [meets.expiries.call exchange, meets.call.call exchange,
    meets.put.call exchange]

/-- With the day's rows loaded, each look-up of the selection is served
from them without a fetch. -/
theorem selectCalls_loaded {cfg : KiteReadConfig} {exchange : Exchange}
    {rows : List InstrumentRow} (h : LoadedFor d meets exchange rows) :
    ((run cfg d (selectCalls meets exchange)).1.map fun entry =>
        (entry.fetched, entry.answered))
      = List.replicate 3 (none, .ok rows) := by
  have hserved : ∀ {meets : LookupMeets}, d.Loaded exchange meets.today rows →
      d.perform cfg (meets.call exchange)
        = (⟨meets.call exchange, none, .ok rows⟩, d) :=
    fun h => h.instrumentRows
  unfold selectCalls
  simp only [InstrumentDump.run, hserved h.expiries, hserved h.call,
    hserved h.put]
  rfl

/-- After some calls, the exchange's latest successful fetch lists the
contract, and it is what was asked for. -/
def ListedAfter (cfg : KiteReadConfig) (calls : List DumpCall)
    (query : OptionQuery) (contract : KiteInstrument) : Prop :=
  (∃ day rows, latestFetch (run cfg {} calls).1 query.exchange
      = some (day, rows) ∧ ∃ row ∈ rows,
        row.For query.underlying query.expiry
          ∧ toBrokerInstrument row = some contract)
    ∧ contract.exchange = query.exchange
    ∧ contract.expiry = some query.expiry
    ∧ contract.strike = some query.strike
    ∧ contract.optionType = some query.optionType

/-- Such a contract is one the entry can trade. -/
theorem ListedAfter.forEntry {cfg : KiteReadConfig} {calls : List DumpCall}
    (h : ListedAfter cfg calls query contract) :
    ∃ leg, contract.forEntry = some leg ∧ leg.optionType = query.optionType := by
  obtain ⟨⟨_, _, _, row, _, _, hmapped⟩, _, _, _, htype⟩ := h
  obtain ⟨-, -, -, hlot⟩ := toBrokerInstrument_keeps hmapped
  unfold KiteInstrument.forEntry
  rw [htype]
  simp only [Option.bind_eq_bind, Option.bind_some, dif_pos hlot]
  exact ⟨_, rfl, rfl⟩

theorem resolveContract_listed {calls : List DumpCall} {meets : LookupMeets}
    (h : sel.resolveContract (run sel.cfg {} calls).2 instrument query meets
      = (.ok contract, d')) :
    d' = (run sel.cfg {} (calls ++ [meets.call query.exchange])).2
      ∧ ListedAfter sel.cfg (calls ++ [meets.call query.exchange]) query
        contract := by
  obtain ⟨rfl, rows, hanswered, hfound, hexchange⟩ := resolveContract_ok h
  have hlatest := (reflects_run sel.cfg calls).answered hanswered
  obtain ⟨row, hrow, hfor, hmapped⟩ := findContract_ok hfound
  unfold ListedAfter
  rw [run_snoc]
  refine ⟨rfl, ?_, hexchange, found_matches hfor hmapped⟩
  obtain ⟨⟨day, latest⟩, hfetch, rfl⟩ := Option.map_eq_some_iff.1 hlatest
  exact ⟨day, latest, hfetch, row, hrow, (isFor_iff.1 hfor).1, hmapped⟩

/-- What a selection that returns has found, after any look-ups and
refreshes of the dumps, whatever their fetches came to. -/
theorem select_listed {history : List DumpCall} {s : SelectedStraddle}
    {meets : SelectMeets}
    (h : sel.select (run sel.cfg {} history).2 instrument spotLtp asOf meets
      = (.ok s, d')) :
    ∃ spec computed, sel.configs instrument = some spec
      ∧ getCurrentWeeklyExpiry sel.holidays spec.toInstrumentConfig asOf
        = .ok computed ∧ s.expiry = computed.date
      ∧ computeAtmStrike spotLtp spec.strikeInterval = .ok s.atmStrike
      ∧ ListedAfter sel.cfg
        (history ++ (selectCalls meets spec.exchange).take 2)
        (legQuery spec instrument s.expiry s.atmStrike .ce) s.call
      ∧ ListedAfter sel.cfg (history ++ selectCalls meets spec.exchange)
        (legQuery spec instrument s.expiry s.atmStrike .pe) s.put
      ∧ d' = (run sel.cfg {} (history ++ selectCalls meets spec.exchange)).2 := by
  obtain ⟨spec, expiry, d₁, d₂, hspec, hatm, hexpiry, hcall, hput, -, -, -, -,
    hsame⟩ := select_ok h
  obtain ⟨rfl, computed, hcomputed, rfl⟩ := currentExpiry_ok hexpiry
  have hafter : ((run sel.cfg {} history).2.perform sel.cfg
      (meets.expiries.call spec.exchange)).2
        = (run sel.cfg {}
          (history ++ [meets.expiries.call spec.exchange])).2 := by
    rw [run_snoc]
  rw [hafter] at hcall
  obtain ⟨rfl, hcallListed⟩ := resolveContract_listed hcall
  obtain ⟨rfl, hputListed⟩ := resolveContract_listed hput
  rw [List.append_assoc] at hcallListed
  rw [List.append_assoc, List.append_assoc] at hputListed
  refine ⟨spec, computed, hspec, hcomputed, hsame, hatm, ?_, ?_, ?_⟩
  · rw [hsame]
    exact hcallListed
  · rw [hsame]
    exact hputListed
  · rw [List.append_assoc, List.append_assoc]
    rfl

/-- Two contracts that were found are an input of the entry. -/
theorem forEntry_isSome {s : SelectedStraddle} {cfg : KiteReadConfig}
    {calls calls' : List DumpCall} {expiry : Date} {strike : ℚ}
    (hcall : ListedAfter cfg calls (legQuery spec instrument expiry strike .ce)
      s.call)
    (hput : ListedAfter cfg calls' (legQuery spec instrument expiry strike .pe)
      s.put) : s.forEntry.isSome := by
  obtain ⟨call, hcallEntry, hce⟩ := hcall.forEntry
  obtain ⟨put, hputEntry, hpe⟩ := hput.forEntry
  unfold SelectedStraddle.forEntry
  rw [hcallEntry, hputEntry]
  simp only [Option.bind_eq_bind, Option.bind_some]
  rw [dif_pos ⟨hce, hpe⟩]
  rfl

/-- Whatever look-ups and refreshes of the dumps came before and whatever
their fetches came to: a straddle that is selected is at the multiple of
the interval nearest to spot and at the computed expiry, and each of its
contracts is listed in the exchange's latest successful fetch. Where the
day's dump is loaded a selection fetches nothing; it returns exactly if
the dump has both contracts; and where it refuses the expiry, the dump has
no contract of it at any strike. -/
theorem selected_straddle_listed (sel : StrikeSelector)
    (history : List DumpCall) (instrument : String) (spotLtp : ℚ) (asOf : Day)
    (meets : SelectMeets) :
    (∀ s d', sel.select (run sel.cfg {} history).2 instrument spotLtp asOf meets
        = (.ok s, d') →
      ∃ spec computed, sel.configs instrument = some spec
        ∧ getCurrentWeeklyExpiry sel.holidays spec.toInstrumentConfig asOf
          = .ok computed ∧ s.expiry = computed.date
        ∧ (∃ z : ℤ, s.atmStrike = z * spec.strikeInterval)
        ∧ |s.atmStrike - spotLtp| ≤ spec.strikeInterval / 2
        ∧ ListedAfter sel.cfg
          (history ++ (selectCalls meets spec.exchange).take 2)
          (legQuery spec instrument s.expiry s.atmStrike .ce) s.call
        ∧ ListedAfter sel.cfg (history ++ selectCalls meets spec.exchange)
          (legQuery spec instrument s.expiry s.atmStrike .pe) s.put
        ∧ s.forEntry.isSome
        ∧ d' = (run sel.cfg {}
          (history ++ selectCalls meets spec.exchange)).2)
    ∧ ∀ spec today rows, sel.configs instrument = some spec →
      latestFetch (run sel.cfg {} history).1 spec.exchange = some (today, rows) →
      OneDay meets today →
        (sel.select (run sel.cfg {} history).2 instrument spotLtp asOf meets).2
          = (run sel.cfg {} history).2
        ∧ ((run sel.cfg (run sel.cfg {} history).2
            (selectCalls meets spec.exchange)).1.map fun entry =>
              (entry.fetched, entry.answered))
          = List.replicate 3 (none, .ok rows)
        ∧ ((∃ s, (sel.select (run sel.cfg {} history).2 instrument spotLtp asOf
              meets).1 = .ok s)
          ↔ ∃ atmStrike computed,
            computeAtmStrike spotLtp spec.strikeInterval = .ok atmStrike
              ∧ getCurrentWeeklyExpiry sel.holidays spec.toInstrumentConfig
                asOf = .ok computed
              ∧ ∀ optionType, Offers rows (legQuery spec instrument
                computed.date atmStrike optionType))
        ∧ ∀ expiry listed, (sel.select (run sel.cfg {} history).2 instrument
            spotLtp asOf meets).1 = .error (.expiryNotListed expiry listed) →
          ∀ strike optionType,
            ¬ Offers rows (legQuery spec instrument expiry strike
              optionType) := by
  refine ⟨fun s d' h => ?_, fun spec today rows hspec hlatest hday => ?_⟩
  · obtain ⟨spec, computed, hspec, hcomputed, hsame, hatm, hcall, hput, hafter⟩ :=
      select_listed h
    obtain ⟨-, hmultiple, -, -⟩ := atm_within hatm
    exact ⟨spec, computed, hspec, hcomputed, hsame, hmultiple,
      (atm_nearest hatm).1, hcall, hput, forEntry_isSome hcall hput, hafter⟩
  · have h := loadedFor (reflects_run sel.cfg history) hlatest hday
    refine ⟨(select_loaded hspec h).1, selectCalls_loaded h,
      select_returns hspec h, ?_⟩
    rintro expiry listed herror strike optionType ⟨contract, hfound, -⟩
    have hnone : findContract rows
        (legQuery spec instrument expiry strike optionType)
          = .error (.instrumentNotFound _) :=
      unlisted_not_found ((select_loaded hspec h).2 expiry listed herror)
    rw [hnone] at hfound
    cases hfound

-- ===================================================== a day of the sample

theorem thursday_le : 3 ≤ 6 := by decide

theorem fifty_pos : (0 : ℚ) < 50 := by decide

theorem three_attempts : 0 < 3 := by decide

/-- NIFTY, weekly on Thursdays, in steps of 50; three attempts a read. -/
def niftySelector : StrikeSelector where
  cfg := { readRetryAttempts := 3, attempts_pos := three_attempts }
  holidays := ⟨fun _ => []⟩
  configs := fun instrument => if instrument = "NIFTY" then
    some { exchange := .nfo, expiryWeekday := 3, weekday_le := thursday_le
           strikeInterval := 50, interval_pos := fifty_pos }
    else none

/-- The sample day, a Thursday. -/
def selectionDay : Day := ⟨739071, by decide⟩

/-- The row of a contract of the sample day. -/
def dayRow (instrumentToken : Nat) (optionType : OptionType) :
    InstrumentRow where
  instrumentToken := some instrumentToken
  exchange := some "NFO"
  tradingsymbol := some (SampleDay.contract optionType).tradingsymbol
  name := some "NIFTY"
  expiry := some SampleDay.ctx.today
  strike := some 24500
  instrumentType := optionType.value
  lotSize := 75

def dayContract (instrumentToken : Nat) (optionType : OptionType) :
    KiteInstrument where
  instrumentToken := instrumentToken
  exchange := .nfo
  tradingsymbol := (SampleDay.contract optionType).tradingsymbol
  name := "NIFTY"
  lotSize := 75
  tickSize := 1 / 20
  expiry := some SampleDay.ctx.today
  strike := some 24500
  optionType := some optionType

/-- The dump was loaded in the morning. -/
def morningLoad : List DumpCall :=
  [dumpCall false SampleDay.ctx.today (.ok [dayRow 11 .ce, dayRow 12 .pe])]

/-- A selection on that day, when every fetch would fail. -/
def cutOffMeets : SelectMeets :=
  let meets : LookupMeets :=
    ⟨SampleDay.ctx.today, { attempt := fun _ => .error dumpRefusal }⟩
  ⟨meets, meets, meets⟩

/-- It returns all the same. -/
theorem straddle_of_the_morning :
    latestFetch (run niftySelector.cfg {} morningLoad).1 .nfo
        = some (SampleDay.ctx.today, [dayRow 11 .ce, dayRow 12 .pe])
      ∧ ∃ s, (niftySelector.select (run niftySelector.cfg {} morningLoad).2
          "NIFTY" 24510 selectionDay cutOffMeets).1 = .ok s := by
  have hlatest : latestFetch (run niftySelector.cfg {} morningLoad).1 .nfo
      = some (SampleDay.ctx.today, [dayRow 11 .ce, dayRow 12 .pe]) := by
    decide +kernel
  refine ⟨hlatest, ?_⟩
  have hselected := ((selected_straddle_listed niftySelector morningLoad "NIFTY"
    24510 selectionDay cutOffMeets).2 _ _ _ rfl hlatest ⟨rfl, rfl, rfl⟩).2.2.1
  refine hselected.2 ⟨24500, selectionDay, by decide +kernel,
    by decide +kernel, fun optionType => ?_⟩
  cases optionType with
  | ce => exact ⟨dayContract 11 .ce, by decide +kernel, rfl⟩
  | pe => exact ⟨dayContract 12 .pe, by decide +kernel, rfl⟩

end StrikeSelector

end AlgoPlatform
