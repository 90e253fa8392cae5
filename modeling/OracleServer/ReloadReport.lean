import OracleServer.BucketReload
import OracleServer.Lib.Significant

/-! What the reload loop tells its operators: the registry gauges, the counters, and one
log line whenever something starts or stops being wrong. -/
namespace OracleServer

/-- The values of `result` on `oracle_registry_reload_total`. -/
inductive ReloadResult
  | unchanged
  | rejected
  | applied
  | fetchError
  deriving DecidableEq, Repr

def ReloadResult.label : ReloadResult → String
  | .unchanged => "unchanged"
  | .rejected => "rejected"
  | .applied => "applied"
  | .fetchError => "fetch_error"

/-- The `oracle_registry_*` metrics and `oracle_configured_symbols`. A gauge is a float and has
no value before it is set; those of the timestamps are given by the milliseconds they show as
seconds. -/
structure RegistryMetrics where
  reloadTotal : ReloadResult → ℕ
  fetchErrorsTotal : ℕ
  invalid : Bool
  generation : Option ℤ
  tokens : Option ℤ
  configuredSymbols : Option ℤ
  lastAppliedTimestamp : Option Int64
  lastCheckTimestamp : Option Int64

inductive ReloadLine
  | checkFailed (error : String)
  | checksSucceed
  | refused (generation : Int64) (error : String)
  | validAgain (generation : Int64)
  | applied (previous next : Option Int64) (change : String)
  deriving DecidableEq

/-- The loop's own state beside that of the instance. -/
structure Reloader where
  inst : Instance
  metrics : RegistryMetrics
  lastError : Option String
  log : List ReloadLine

/-- One turn's view of the world: the network, and the clock when the check succeeded and
when a set was applied. -/
structure Turn where
  net : Network
  checkedAt : Int64
  appliedAt : Int64

namespace RegistryMetrics

def unset : RegistryMetrics := ⟨fun _ => 0, 0, false, none, none, none, none, none⟩

def count (m : RegistryMetrics) (result : ReloadResult) : RegistryMetrics :=
  { m with reloadTotal := Function.update m.reloadTotal result (m.reloadTotal result + 1) }

def recordApplied (m : RegistryMetrics) (set : TokenSet) (now : Int64) : RegistryMetrics :=
  { m with
    generation := (set.generation.map fun g => asF64 g.toInt).or m.generation
    tokens := some (asF64 set.symbols.length)
    configuredSymbols := some (asF64 set.symbols.length)
    lastAppliedTimestamp := some now }

end RegistryMetrics

namespace Reloader

/-- What `main` and `spawn` leave before the first turn. -/
def started (set : TokenSet) (reads : BootReads) (appliedAt checkedAt : Int64) : Reloader :=
  let metrics := RegistryMetrics.unset.recordApplied set appliedAt
  ⟨Bucket.started set reads, { metrics with lastCheckTimestamp := some checkedAt, invalid := false },
    none, []⟩

def rejected (r : Reloader) : Option Int64 := r.inst.running.rejected

def current (r : Reloader) : TokenSet := r.inst.running.tokens

def say (r : Reloader) (line : ReloadLine) : Reloader := { r with log := r.log ++ [line] }

def count (r : Reloader) (result : ReloadResult) : Reloader :=
  { r with metrics := r.metrics.count result }

def perform (r : Reloader) (step : ReloadStep) : Reloader :=
  { r with inst := { r.inst with running := step.perform r.inst.running } }

def clearRejected (r : Reloader) (generation : Int64) : Reloader :=
  if r.rejected.isSome then (r.perform .clearRejected).say (.validAgain generation)
  else r.perform .clearRejected

/-- The arms of `Reloader::apply`. -/
def decided (r : Reloader) (now : Int64) : Decision → Reloader
  | .unchanged generation => (r.clearRejected generation).count .unchanged
  | .reject generation error =>
    let r := if r.rejected ≠ some generation then r.say (.refused generation error) else r
    (r.perform (.reject generation)).count .rejected
  | .sameRows generation =>
    let r := (r.perform (.replace { r.current with generation := some generation })).clearRejected
      generation
    let metrics := { r.metrics with generation := some (asF64 generation.toInt) }
    { r with metrics }.count .unchanged
  | .apply set removed readdressed change =>
    let previous := r.current
    let r := ((r.perform (.replace set)).perform (.sendReplace set.symbols)).perform
      (.forget (removed ++ readdressed))
    let r := match set.generation with
      | some generation => r.clearRejected generation
      | none => r
    let r := { r with metrics := r.metrics.recordApplied r.current now }.count .applied
    r.say (.applied previous.generation set.generation change)

/-- `Reloader::apply`, with what it reports. -/
def apply (r : Reloader) (now : Int64) (decision : Decision) : Reloader :=
  let r := r.decided now decision
  { r with metrics := { r.metrics with invalid := r.inst.running.invalid } }

def fetchFailed (r : Reloader) (error : String) : Reloader :=
  let r := if r.lastError ≠ some error then
    { r.say (.checkFailed error) with lastError := some error } else r
  { r with metrics := { r.metrics with fetchErrorsTotal := r.metrics.fetchErrorsTotal + 1 } }.count
    .fetchError

def fetched (r : Reloader) (now : Int64) : Reloader :=
  let r := if r.lastError.isSome then { r.say .checksSucceed with lastError := none } else r
  { r with metrics := { r.metrics with lastCheckTimestamp := some now } }

section Turn
variable [Http] [Toml] [Alloy] [Unicode] (b : Bucket) (source : RegistrySource) (static : Table)
  (bootConfig : Config)

/-- One turn of the loop in `Reloader::spawn`, in full. -/
def turn (r : Reloader) (t : Turn) : Reloader :=
  let current := r.current
  match b.read r.inst.cached t.net source.url (r.rejected.or current.generation) with
  | (.error e, cached, _) => { r with inst := { r.inst with cached } }.fetchFailed e
  | (.ok .unchanged, cached, _) =>
    let r := { r with inst := { r.inst with cached } }.fetched t.checkedAt
    r.count (if r.rejected.isSome then .rejected else .unchanged)
  | (.ok (.copy bytes generation), cached, _) =>
    ({ r with inst := { r.inst with cached } }.fetched t.checkedAt).apply t.appliedAt
      (Reload.decide static bootConfig current generation bytes)

end Turn

/-- The gauges show what the instance runs. -/
structure Shows (r : Reloader) : Prop where
  invalid : r.metrics.invalid = r.inst.running.invalid
  generation : r.metrics.generation = r.current.generation.map fun g => asF64 g.toInt
  tokens : r.metrics.tokens = some (asF64 r.current.symbols.length)
  configuredSymbols : r.metrics.configuredSymbols = some (asF64 r.current.symbols.length)

/-- A generation of at most 53 bits is shown as it is. -/
theorem Shows.exact {r : Reloader} (h : r.Shows) {g : Int64} (hg : r.current.generation = some g)
    (hbits : g.toInt.natAbs < 2 ^ 53) : r.metrics.generation = some g.toInt := by
  rw [h.generation, hg, Option.map_some, asF64_eq hbits]

end Reloader

namespace ReloadLine

/-- What a line says about the refused generation. -/
def refusal : ReloadLine → Option (Option Int64)
  | .refused generation _ => some (some generation)
  | .validAgain _ => some none
  | _ => none

/-- What a line says about the checks. -/
def check : ReloadLine → Option (Option String)
  | .checkFailed error => some (some error)
  | .checksSucceed => some none
  | _ => none

/-- The generations a line names as swapped. -/
def swap : ReloadLine → Option (Option Int64 × Option Int64)
  | .applied previous next _ => some (previous, next)
  | _ => none

end ReloadLine

/-- The two sets are built of the same rows. -/
def TokenSet.sameRows (set other : TokenSet) [Unicode] : Bool :=
  match set.projection, other.projection with
  | some p, some q => p.sameAs q
  | none, none => true
  | _, _ => false

theorem TokenSet.sameRows_self [Unicode] (set : TokenSet) : set.sameRows set = true := by
  unfold sameRows
  cases set.projection with
  | none => rfl
  | some p => simp [Projection.sameAs, eqIgnoreAsciiCase]

namespace Reloader

/-- The line of `clear_rejected`. -/
def cleared (refused : Option Int64) (generation : Int64) : List ReloadLine :=
  if refused.isSome then [.validAgain generation] else []

theorem clearRejected_eq (r : Reloader) (generation : Int64) : r.clearRejected generation =
    { r.perform .clearRejected with log := r.log ++ cleared r.inst.running.rejected generation } := by
  unfold clearRejected cleared rejected
  split
  · rfl
  · simp [perform]

section Cleared
variable (refused : Option Int64) (generation : Int64)

theorem cleared_refusals : (cleared refused generation).filterMap ReloadLine.refusal =
    if refused = none then [] else [none] := by
  cases refused <;> rfl

theorem cleared_checks : (cleared refused generation).filterMap ReloadLine.check = [] := by
  cases refused <;> rfl

theorem cleared_swaps : (cleared refused generation).filterMap ReloadLine.swap = [] := by
  cases refused <;> rfl

end Cleared

/-- The line of a check that succeeds. -/
def recovered (lastError : Option String) : List ReloadLine :=
  if lastError.isSome then [.checksSucceed] else []

theorem fetched_log (r : Reloader) (now : Int64) :
    (r.fetched now).log = r.log ++ recovered r.lastError := by
  unfold fetched recovered
  cases r.lastError <;> simp [say]

theorem fetched_lastError (r : Reloader) (now : Int64) : (r.fetched now).lastError = none := by
  unfold fetched
  cases h : r.lastError <;> simp [h]

theorem fetched_inst (r : Reloader) (now : Int64) : (r.fetched now).inst = r.inst := by
  unfold fetched
  split <;> rfl

theorem fetched_metrics (r : Reloader) (now : Int64) : (r.fetched now).metrics =
    { r.metrics with lastCheckTimestamp := some now } := by
  unfold fetched
  split <;> rfl

section Told
variable [Unicode]

/-- The result that names what a turn did, by the states before and after it. -/
def resultOf (r r' : Reloader) : ReloadResult :=
  if r'.lastError.isSome then .fetchError
  else if r'.rejected.isSome then .rejected
  else if r'.current.sameRows r.current then .unchanged
  else .applied

/-- How one turn is reported: what it adds to the log and to the counters, by what it
changed. -/
structure Tells (r r' : Reloader) (result : ReloadResult) (lines : List ReloadLine) : Prop where
  log : r'.log = r.log ++ lines
  refusals : lines.filterMap ReloadLine.refusal =
    if r.rejected = r'.rejected then [] else [r'.rejected]
  checks : lines.filterMap ReloadLine.check =
    if r.lastError = r'.lastError then [] else [r'.lastError]
  swaps : lines.filterMap ReloadLine.swap =
    if result = .applied then [(r.current.generation, r'.current.generation)] else []
  kept : result ≠ .applied → r'.current = { r.current with generation := r'.current.generation }
  untouched : result = .rejected ∨ result = .fetchError → r'.current = r.current
  swapped : result = .applied → r'.current.sameRows r.current = false
  counted : r'.metrics.reloadTotal = (r.metrics.count result).reloadTotal
  failed : result = .fetchError ↔ r'.lastError.isSome
  fetchErrors : r'.metrics.fetchErrorsTotal =
    r.metrics.fetchErrorsTotal + if result = .fetchError then 1 else 0
  rejected : result ≠ .fetchError → (result = .rejected ↔ r'.rejected.isSome)
  shows : r.Shows → r'.Shows

variable {r r' : Reloader} {result : ReloadResult} {lines : List ReloadLine}

theorem fetchFailed_tells (r : Reloader) (cached : CachedToken) (e : String) : ∃ lines,
    Tells r ({ r with inst := { r.inst with cached } }.fetchFailed e) .fetchError lines := by
  by_cases hsame : r.lastError = some e
  · refine ⟨[], ?_⟩
    constructor
    case shows =>
      simp only [fetchFailed, hsame, ne_eq, not_true_eq_false, if_false]
      exact fun h => ⟨h.invalid, h.generation, h.tokens, h.configuredSymbols⟩
    all_goals
      simp [fetchFailed, hsame, count, RegistryMetrics.count, Reloader.rejected, current]
  · refine ⟨[.checkFailed e], ?_⟩
    constructor
    case shows =>
      simp only [fetchFailed, hsame, ne_eq, not_false_eq_true, if_true]
      exact fun h => ⟨h.invalid, h.generation, h.tokens, h.configuredSymbols⟩
    all_goals
      simp [fetchFailed, hsame, count, RegistryMetrics.count, Reloader.rejected, current, say,
        ReloadLine.refusal, ReloadLine.check, ReloadLine.swap]

/-- What a decision reports, to a loop whose check has just succeeded. -/
theorem apply_tells (now : Int64) (d : Decision) (hok : r.lastError = none)
    (hset : ∀ set removed readdressed change, d = .apply set removed readdressed change →
      set.generation.isSome ∧ set.sameRows r.current = false) :
    ∃ result lines, result ≠ .fetchError ∧ Tells r (r.apply now d) result lines := by
  cases d with
  | unchanged generation =>
    refine ⟨.unchanged, cleared r.inst.running.rejected generation, by simp, ?_⟩
    simp only [apply, decided, clearRejected_eq]
    constructor
    case shows => exact fun h => ⟨rfl, h.generation, h.tokens, h.configuredSymbols⟩
    all_goals
      simp [cleared_refusals, cleared_checks, cleared_swaps, hok, count, RegistryMetrics.count,
        perform, ReloadStep.perform, current, Reloader.rejected]
  | reject generation error =>
    by_cases hsame : r.inst.running.rejected = some generation
    · refine ⟨.rejected, [], by simp, ?_⟩
      simp only [apply, decided, Reloader.rejected, hsame, ne_eq, not_true_eq_false, if_false]
      constructor
      case shows => exact fun h => ⟨rfl, h.generation, h.tokens, h.configuredSymbols⟩
      all_goals
        simp [hsame, hok, count, RegistryMetrics.count, perform, ReloadStep.perform, current,
          Reloader.rejected]
    · refine ⟨.rejected, [.refused generation error], by simp, ?_⟩
      simp only [apply, decided, Reloader.rejected, hsame, ne_eq, not_false_eq_true, if_true]
      constructor
      case shows => exact fun h => ⟨rfl, h.generation, h.tokens, h.configuredSymbols⟩
      all_goals
        simp [hsame, hok, count, RegistryMetrics.count, perform, ReloadStep.perform, say, current,
          Reloader.rejected, ReloadLine.refusal, ReloadLine.check, ReloadLine.swap]
  | sameRows generation =>
    refine ⟨.unchanged, cleared r.inst.running.rejected generation, by simp, ?_⟩
    simp only [apply, decided, clearRejected_eq]
    constructor
    case shows => exact fun h => ⟨rfl, rfl, h.tokens, h.configuredSymbols⟩
    all_goals
      simp [cleared_refusals, cleared_checks, cleared_swaps, hok, count, RegistryMetrics.count,
        perform, ReloadStep.perform, current, Reloader.rejected]
  | apply set removed readdressed change =>
    obtain ⟨hsome, hother⟩ := hset _ _ _ _ rfl
    obtain ⟨generation, hgeneration⟩ := Option.isSome_iff_exists.mp hsome
    refine ⟨.applied, cleared r.inst.running.rejected generation ++ [.applied r.current.generation set.generation change],
      by simp, ?_⟩
    simp only [apply, decided, hgeneration, clearRejected_eq]
    constructor
    case shows =>
      refine fun _ => ⟨rfl, ?_, rfl, rfl⟩
      change (set.generation.map fun g => asF64 g.toInt).or r.metrics.generation =
        set.generation.map fun g => asF64 g.toInt
      simp [hgeneration]
    case swapped => exact fun _ => hother
    all_goals
      simp [cleared_refusals, cleared_checks, cleared_swaps, hgeneration, hok, count, RegistryMetrics.count,
        perform, ReloadStep.perform, say, current, Reloader.rejected, Running.observe, RegistryMetrics.recordApplied, ReloadLine.refusal, ReloadLine.check, ReloadLine.swap]

/-- A check that finds nothing new counts a refused copy again. -/
theorem conditioned_tells (r : Reloader) (hok : r.lastError = none) :
    Tells r (r.count (if r.rejected.isSome then .rejected else .unchanged))
      (if r.rejected.isSome then .rejected else .unchanged) [] := by
  constructor
  case shows => exact fun h => ⟨h.invalid, h.generation, h.tokens, h.configuredSymbols⟩
  all_goals
    cases hrejected : r.inst.running.rejected <;>
      simp [hrejected, hok, count, RegistryMetrics.count, Reloader.rejected, current]

/-- What follows a successful check is told with it. -/
theorem tells_fetched {cached : CachedToken} {now : Int64} (hresult : result ≠ .fetchError)
    (h : Tells ({ r with inst := { r.inst with cached } }.fetched now) r' result lines) :
    Tells r r' result (recovered r.lastError ++ lines) := by
  have hok : r'.lastError = none := by
    have := h.failed.not.mp hresult
    simpa using this
  have hrefusals := h.refusals
  have hchecks := h.checks
  have hswaps := h.swaps
  have hkept := h.kept
  have huntouched := h.untouched
  have hswapped := h.swapped
  have hcounted := h.counted
  have hfetch := h.fetchErrors
  simp only [Reloader.rejected, current, fetched_inst, fetched_lastError, fetched_metrics,
    RegistryMetrics.count, hok, if_true] at hrefusals hchecks hswaps hkept huntouched hswapped hcounted hfetch
  constructor
  · rw [h.log, fetched_log, List.append_assoc]
  · rw [List.filterMap_append, hrefusals]
    cases r.lastError <;> rfl
  · rw [List.filterMap_append, hchecks, hok]
    cases r.lastError <;> rfl
  · rw [List.filterMap_append, hswaps]
    cases r.lastError <;> rfl
  · exact hkept
  · exact huntouched
  · exact hswapped
  · exact hcounted
  · exact h.failed
  · exact hfetch
  · exact h.rejected
  · intro hr
    refine h.shows ?_
    constructor <;> simp only [fetched_inst, fetched_metrics, current]
    · exact hr.invalid
    · exact hr.generation
    · exact hr.tokens
    · exact hr.configuredSymbols

/-- The result a turn is counted under is the one that names it. -/
theorem Tells.result_eq (h : Tells r r' result lines) : result = resultOf r r' := by
  unfold resultOf
  by_cases hfailed : result = .fetchError
  · rw [if_pos (h.failed.mp hfailed), hfailed]
  rw [if_neg fun hsome => hfailed (h.failed.mpr hsome)]
  by_cases hrejected : result = .rejected
  · rw [if_pos ((h.rejected hfailed).mp hrejected), hrejected]
  rw [if_neg fun hsome => hrejected ((h.rejected hfailed).mpr hsome)]
  by_cases happlied : result = .applied
  · rw [h.swapped happlied, happlied]
    rfl
  · have hrows : r'.current.sameRows r.current = true := by
      rw [h.kept happlied]
      exact TokenSet.sameRows_self r.current
    rw [if_pos hrows]
    cases result with
    | unchanged => rfl
    | rejected => exact absurd rfl hrejected
    | applied => exact absurd rfl happlied
    | fetchError => exact absurd rfl hfailed

end Told

section Turns
variable [Http] [Toml] [Alloy] [Unicode] {b : Bucket} {source : RegistrySource} {static : Table}
  {bootConfig : Config}

omit [Http] in
theorem decide_applies {current : TokenSet} {generation : Int64} {bytes : ByteArray} {set : TokenSet}
    {removed readdressed : List Symbol} {change : String}
    (h : Reload.decide static bootConfig current generation bytes =
      .apply set removed readdressed change) :
    set.generation = some generation ∧ set.sameRows current = false := by
  unfold Reload.decide at h
  split at h
  · cases h
  split at h
  · cases h
  split at h
  · cases h
  split at h
  · cases h
  next running hrunning =>
  split at h
  · cases h
  · next hother =>
    obtain ⟨rfl, -⟩ := Decision.apply.inj h
    refine ⟨rfl, ?_⟩
    simpa [TokenSet.sameRows, hrunning] using hother

variable (b source static bootConfig) in
/-- Every turn is told, under one result. -/
theorem turn_tells (r : Reloader) (t : Turn) :
    ∃ result lines, Tells r (r.turn b source static bootConfig t) result lines := by
  unfold turn
  dsimp only
  obtain ⟨read, cached, sent⟩ :=
    b.read r.inst.cached t.net source.url (r.rejected.or r.current.generation)
  cases read with
  | error e =>
    obtain ⟨lines, h⟩ := fetchFailed_tells r cached e
    exact ⟨_, lines, h⟩
  | ok read =>
    cases read with
    | unchanged =>
      have hresult : ∀ refused : Option Int64,
          (if refused.isSome then ReloadResult.rejected else .unchanged) ≠ .fetchError := by
        intro refused
        split <;> simp
      exact ⟨_, _, tells_fetched (hresult _) (conditioned_tells _ (fetched_lastError ..))⟩
    | copy bytes generation =>
      obtain ⟨result, lines, hresult, h⟩ := apply_tells
        (r := { r with inst := { r.inst with cached } }.fetched t.checkedAt) t.appliedAt
        (Reload.decide static bootConfig r.current generation bytes) (fetched_lastError ..)
        fun set removed readdressed change hd => by
          obtain ⟨hgeneration, hother⟩ := decide_applies hd
          exact ⟨by rw [hgeneration]; rfl, by rwa [current, fetched_inst]⟩
      exact ⟨result, _, tells_fetched hresult h⟩

omit [Http] [Toml] [Alloy] [Unicode] in
theorem apply_inst (r : Reloader) (now : Int64) (d : Decision) : (r.apply now d).inst =
    { r.inst with running := (Reload.apply r.current d).foldl ReloadStep.perform r.inst.running } := by
  cases d with
  | unchanged generation => simp [apply, decided, clearRejected_eq, count, perform, Reload.apply]
  | reject generation error =>
    simp only [apply, decided, count, perform, Reload.apply]
    split <;> rfl
  | sameRows generation => simp [apply, decided, clearRejected_eq, count, perform, Reload.apply, current]
  | apply set removed readdressed change =>
    cases h : set.generation <;>
      simp [apply, decided, clearRejected_eq, count, say, perform, Reload.apply, h]

/-- Erasing what it reports, a turn is the turn of an instance. -/
theorem turn_inst (r : Reloader) (t : Turn) : (r.turn b source static bootConfig t).inst =
    b.turned source static bootConfig r.inst t.net := by
  unfold turn Bucket.turned Bucket.turn
  simp only [Reloader.rejected, current]
  obtain ⟨read, cached, sent⟩ := b.read r.inst.cached t.net source.url
    (r.inst.running.rejected.or r.inst.running.tokens.generation)
  cases read with
  | error e =>
    simp only [fetchFailed, count]
    split <;> rfl
  | ok read =>
    cases read with
    | unchanged => simp [count, fetched_inst]
    | copy bytes generation => simp [apply_inst, fetched_inst, current]

end Turns

/-- The states of the loop after each turn. -/
def states [Http] [Toml] [Alloy] [Unicode] (b : Bucket) (source : RegistrySource) (static : Table)
    (bootConfig : Config) (r : Reloader) : List Turn → List Reloader
  | [] => []
  | t :: ts =>
    r.turn b source static bootConfig t ::
      states b source static bootConfig (r.turn b source static bootConfig t) ts

/-- A list without its repetitions, after one more element. -/
theorem destutter_step {α : Type} [DecidableEq α] {a b : α} {l l' tail : List α}
    (hl : l = if a = b then [] else [b]) (htail : b :: l' = tail.destutter' (· ≠ ·) b) :
    a :: (l ++ l') = (b :: tail).destutter' (· ≠ ·) a := by
  rw [List.destutter'_cons, ← htail, hl]
  by_cases hab : a = b
  · subst hab
    rw [if_pos rfl, if_neg (not_not_intro rfl), List.nil_append, htail]
  · rw [if_neg hab, if_pos hab]
    rfl

theorem count_one (m : RegistryMetrics) (result other : ReloadResult) :
    (m.count result).reloadTotal other =
      m.reloadTotal other + if result = other then 1 else 0 := by
  by_cases h : result = other
  · subst h
    simp [RegistryMetrics.count]
  · simp [RegistryMetrics.count, h, Ne.symm h]

/-- Every result is one of the four. -/
theorem count_total (results : List ReloadResult) :
    results.count .unchanged + results.count .rejected + results.count .applied +
      results.count .fetchError = results.length := by
  induction results with
  | nil => rfl
  | cons result results ih =>
    simp only [List.count_cons, List.length_cons, ← ih]
    cases result <;> simp <;> omega

section Reports
variable [Unicode]

/-- The results that name the turns from `r` on. -/
def results (r : Reloader) : List Reloader → List ReloadResult
  | [] => []
  | s :: states => resultOf r s :: results s states

theorem results_length (r : Reloader) (states : List Reloader) :
    (results r states).length = states.length := by
  induction states generalizing r with
  | nil => rfl
  | cons s states ih => rw [results, List.length_cons, List.length_cons, ih]

/-- The generations before and after each turn that took other rows. -/
def swapped (r : Reloader) : List Reloader → List (Option Int64 × Option Int64)
  | [] => []
  | s :: states =>
    (if resultOf r s = .applied then [(r.current.generation, s.current.generation)] else []) ++
      swapped s states

/-- A turn that names no swap leaves the running set, its generation aside; one that failed
or refused a copy leaves it altogether. -/
structure Keeps (r s : Reloader) : Prop where
  rows : resultOf r s ≠ .applied →
    s.current = { r.current with generation := s.current.generation }
  untouched : resultOf r s = .rejected ∨ resultOf r s = .fetchError → s.current = r.current
  swapped : resultOf r s = .applied → s.current.sameRows r.current = false

/-- What the log and the counters say of the turns that led from `r` to `r'`. -/
structure Reports (r : Reloader) (states : List Reloader) (r' : Reloader) (lines : List ReloadLine) :
    Prop where
  log : r'.log = r.log ++ lines
  refusals : r.rejected :: lines.filterMap ReloadLine.refusal =
    (states.map Reloader.rejected).destutter' (· ≠ ·) r.rejected
  checks : r.lastError :: lines.filterMap ReloadLine.check =
    (states.map Reloader.lastError).destutter' (· ≠ ·) r.lastError
  swaps : lines.filterMap ReloadLine.swap = swapped r states
  kept : (r :: states).IsChain Keeps
  counts : ∀ x, r'.metrics.reloadTotal x = r.metrics.reloadTotal x + (results r states).count x
  fetchErrorsTotal : r'.metrics.fetchErrorsTotal =
    r.metrics.fetchErrorsTotal + (results r states).count .fetchError
  shows : r.Shows → ∀ s ∈ states, s.Shows

theorem reports_nil (r : Reloader) : Reports r [] r [] := by
  constructor <;> simp [results, swapped]

theorem Reports.cons {s : Reloader} {states : List Reloader} {more : List ReloadLine}
    (htell : Tells r s result lines) (h : Reports s states r' more) :
    Reports r (s :: states) r' (lines ++ more) := by
  obtain rfl := htell.result_eq
  constructor
  · rw [h.log, htell.log, List.append_assoc]
  · rw [List.filterMap_append, List.map_cons]
    exact destutter_step htell.refusals h.refusals
  · rw [List.filterMap_append, List.map_cons]
    exact destutter_step htell.checks h.checks
  · rw [List.filterMap_append, htell.swaps, h.swaps, swapped]
  · exact .cons_cons ⟨htell.kept, htell.untouched, htell.swapped⟩ h.kept
  · intro x
    rw [h.counts, htell.counted, count_one, results, List.count_cons]
    simp only [beq_iff_eq]
    omega
  · rw [h.fetchErrorsTotal, htell.fetchErrors, results, List.count_cons]
    simp only [beq_iff_eq]
    omega
  · intro hr x hx
    have hs : s.Shows := htell.shows hr
    rcases List.mem_cons.mp hx with rfl | hx
    · exact hs
    · exact h.shows hs x hx

end Reports

section Runs
variable [Http] [Toml] [Alloy] [Unicode] (b : Bucket) (source : RegistrySource) (static : Table)
  (bootConfig : Config)

theorem turns_report (r : Reloader) (turns : List Turn) : ∃ lines,
    Reports r (states b source static bootConfig r turns)
      (turns.foldl (Reloader.turn b source static bootConfig) r) lines := by
  induction turns generalizing r with
  | nil => exact ⟨[], reports_nil r⟩
  | cons t turns ih =>
    obtain ⟨result, lines, htell⟩ := turn_tells b source static bootConfig r t
    obtain ⟨more, hmore⟩ := ih (r.turn b source static bootConfig t)
    exact ⟨lines ++ more, hmore.cons htell⟩

omit [Http] [Toml] [Alloy] [Unicode] in
theorem started_shows (set : TokenSet) (reads : BootReads) (appliedAt checkedAt : Int64) :
    (started set reads appliedAt checkedAt).Shows where
  invalid := rfl
  generation := by simp [started, RegistryMetrics.recordApplied, RegistryMetrics.unset, current,
    Bucket.started]
  tokens := rfl
  configuredSymbols := rfl

end Runs

/-- What the loop has told its operators by the end of a run from `start`, where the log was
empty: the gauges show what the instance runs, each result is counted as often as it names a
turn, and a line is written exactly when the set is swapped, when a copy starts or stops being
refused, and when the check starts failing, fails otherwise or stops failing. -/
structure Reported [Unicode] (start : Reloader) (states : List Reloader) (r : Reloader) : Prop where
  shown : ∀ s ∈ start :: states, s.Shows
  exact : ∀ s ∈ start :: states, ∀ g, s.current.generation = some g → g.toInt.natAbs < 2 ^ 53 →
    s.metrics.generation = some g.toInt
  counts : ∀ result, r.metrics.reloadTotal result = (results start states).count result
  total : r.metrics.reloadTotal .unchanged + r.metrics.reloadTotal .rejected +
    r.metrics.reloadTotal .applied + r.metrics.reloadTotal .fetchError = states.length
  fetchErrorsTotal : r.metrics.fetchErrorsTotal = r.metrics.reloadTotal .fetchError
  kept : (start :: states).IsChain Keeps
  swaps : r.log.filterMap ReloadLine.swap = swapped start states
  refusals : none :: r.log.filterMap ReloadLine.refusal =
    (states.map Reloader.rejected).destutter' (· ≠ ·) none
  checks : none :: r.log.filterMap ReloadLine.check =
    (states.map Reloader.lastError).destutter' (· ≠ ·) none

end Reloader

/-! The sample bucket over five turns: the second copy is applied, a check fails, the third
copy is refused twice, and the second is the latest again. -/
namespace Sample

def booted : BootReads := (storage.boot tokensSource staticConfig .boot firstReads).2

def watched : List Turn :=
  [serving 2, failing, serving 3, serving 3, serving 2].map fun net => ⟨net, 10, 20⟩

def reporter (config : Config) (set : TokenSet) : Reloader :=
  watched.foldl (Reloader.turn storage tokensSource staticConfig config)
    (Reloader.started set booted 1 2)

/-- What the five turns come to: one swap, a failure and two refusals. -/
def Counted (r : Reloader) : Prop :=
  r.metrics.reloadTotal .unchanged = 1 ∧ r.metrics.reloadTotal .rejected = 2 ∧
    r.metrics.reloadTotal .applied = 1 ∧ r.metrics.reloadTotal .fetchError = 1 ∧
    r.metrics.generation = some 2 ∧ r.metrics.invalid = false ∧
    r.log.filterMap ReloadLine.swap = [(some 1, some 2)]

instance (r : Reloader) : Decidable (Counted r) := by
  unfold Counted
  infer_instance

end Sample

end OracleServer
