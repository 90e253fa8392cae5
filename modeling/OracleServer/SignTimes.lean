import OracleServer.SignSafety

/-! How long a caller of `sign_context` can wait. A runtime that is at most `lag` late takes
every step that is ready within `lag`, and the timeout on an attempt makes its end ready
after `SIGN_TIMEOUT` at the latest. `since` is when the task of an entry came to where it
is, and `joined` when a call began to wait. -/
namespace OracleServer

def signTimeout : ℕ := seconds 5

namespace SignTask

/-- How long a task may stay where it is; where it has ended, for ever. -/
def within (lag : ℕ) : SignTask → Option ℕ
  | .held | .evicting _ | .sending _ => some lag
  | .signing _ => some (signTimeout + lag)
  | .ended | .dead => none

/-- How long after the start of the sign a task may come to where it is. -/
def reached (lag : ℕ) : SignTask → ℕ
  | .held => 0
  | .signing false => lag
  | .signing true => lag + (signTimeout + lag)
  | .evicting _ => lag + 2 * (signTimeout + lag)
  | .sending _ => 2 * lag + 2 * (signTimeout + lag)
  | .ended | .dead => 3 * lag + 2 * (signTimeout + lag)

/-- Where a task goes from where it is. -/
inductive Next : SignTask → SignTask → Prop
  | spawned : Next .held (.signing false)
  | retried : Next (.signing false) (.signing true)
  | signed (retry : Bool) (signature : List UInt8) :
    Next (.signing retry) (.sending (.done signature))
  | failed (message : String) : Next (.signing true) (.evicting message)
  | evicted (message : String) : Next (.evicting message) (.sending (.failed message))
  | sent (state : SignState) : Next (.sending state) .ended
  | signingDied (retry : Bool) : Next (.signing retry) .dead
  | evictingDied (message : String) : Next (.evicting message) .dead
  | sendingDied (state : SignState) : Next (.sending state) .dead

/-- The time a task may take to come to the next place is enough for all places before. -/
lemma reached_next (lag : ℕ) {t t' : SignTask} (h : Next t t') :
    ∃ d, t.within lag = some d ∧ t.reached lag + d ≤ t'.reached lag := by
  cases h with
  | spawned => exact ⟨_, rfl, by simp [reached]⟩
  | retried => exact ⟨_, rfl, by simp [reached]⟩
  | signed retry signature => cases retry <;> exact ⟨_, rfl, by simp [reached]; omega⟩
  | failed message => exact ⟨_, rfl, by simp [reached]; omega⟩
  | evicted message => exact ⟨_, rfl, by simp [reached]; omega⟩
  | sent state => exact ⟨_, rfl, by simp [reached]; omega⟩
  | signingDied retry => cases retry <;> exact ⟨_, rfl, by simp [reached]; omega⟩
  | evictingDied message => exact ⟨_, rfl, by simp [reached]; omega⟩
  | sendingDied state => exact ⟨_, rfl, by simp [reached]; omega⟩

/-- A task that is still to come to an end has ten seconds and five lags from the start. -/
lemma reached_within {lag d : ℕ} {t : SignTask} (h : t.within lag = some d) :
    t.reached lag + d ≤ 2 * signTimeout + 5 * lag := by
  cases t with
  | signing retry => cases retry <;> simp_all [within, reached] <;> omega
  | held => simp_all [within, reached]; omega
  | evicting message => simp_all [within, reached]; omega
  | sending state => simp_all [within, reached]; omega
  | ended => simp [within] at h
  | dead => simp [within] at h

lemma reached_le (lag : ℕ) (t : SignTask) : t.reached lag ≤ 2 * signTimeout + 5 * lag := by
  cases t with
  | signing retry => cases retry <;> simp only [reached] <;> omega
  | _ => simp only [reached]; omega

lemma next_ne {t t' : SignTask} (h : Next t t') : t' ≠ t := by
  cases h <;> simp

end SignTask

lemma CacheEntry.within_of_alive (lag : ℕ) {e : CacheEntry} (h : e.senderAlive = true) :
    ∃ d, e.task.within lag = some d := by
  unfold senderAlive at h
  cases htask : e.task <;> simp_all [SignTask.within]

namespace SignerState
variable [Keccak] {cfg : SignerConfig} {s s' : SignerState}

/-- Where an entry of a new state comes from. -/
inductive Entered (s s' : SignerState) (k : ℕ) (e' : CacheEntry) : Prop
  | kept {e : CacheEntry} (hk : s.cache.made[k]? = some e) (hstart : e'.startedAt = e.startedAt)
    (htask : e'.task = e.task)
  | moved {e : CacheEntry} (hk : s.cache.made[k]? = some e) (hstart : e'.startedAt = e.startedAt)
    (htask : e.task.Next e'.task)
  | made (hk : s.cache.made[k]? = none) (hstart : e'.startedAt = s.now) (htask : e'.task = .held)

omit [Keccak] in
lemma entered_of_update {k j : ℕ} {e e' x : CacheEntry} (hk : s.cache.made[k]? = some e)
    (hmade : s'.cache.made = (s.cache.update k e').made) (hstart : e'.startedAt = e.startedAt)
    (htask : e.task.Next e'.task) (hj : s'.cache.made[j]? = some x) : Entered s s' j x := by
  rw [hmade, SignatureCache.update_made hk] at hj
  split at hj
  · next heq =>
    obtain rfl := Option.some.inj hj
    exact .moved (heq ▸ hk) hstart htask
  · exact .kept hj rfl rfl

omit [Keccak] in
lemma update_evict_made (c : SignatureCache) (hash : B256) (k : ℕ) (e : CacheEntry) :
    ((c.evict hash k).update k e).made = (c.update k e).made := by
  rw [SignatureCache.update, SignatureCache.evict_made, SignatureCache.update]

lemma entered_step {event : SignEvent} (h : s.step cfg event = some s') {k : ℕ} {e' : CacheEntry}
    (hk : s'.cache.made[k]? = some e') : Entered s s' k e' := by
  cases event with
  | tick elapsed =>
    obtain rfl := Option.some.inj h
    exact .kept hk rfl rfl
  | call context =>
    obtain rfl := Option.some.inj h
    have hmade : (s.call cfg context).cache = (s.cache.lookup cfg s.now (contextHash context)).2 := by
      unfold call
      split <;> next heq => rw [heq]
    rw [hmade] at hk
    rcases SignatureCache.lookup_cases cfg s.cache s.now (contextHash context) with
      ⟨_, _, _, heq⟩ | ⟨_, _, _, _, _, heq⟩
    · rw [heq] at hk
      exact .kept hk rfl rfl
    · rw [heq] at hk
      rcases lt_trichotomy k s.cache.made.length with hlt | rfl | hgt
      · rw [List.getElem?_append_left hlt] at hk
        exact .kept hk rfl rfl
      · rw [List.getElem?_append_right le_rfl, Nat.sub_self] at hk
        obtain rfl := Option.some.inj hk
        exact .made (List.getElem?_eq_none le_rfl) rfl rfl
      · rw [List.getElem?_eq_none (by simpa using hgt)] at hk
        cases hk
  | spawn j =>
    simp only [step, spawn, Option.bind_eq_bind, Option.bind_eq_some_iff] at h
    obtain ⟨c, -, e, he, h⟩ := h
    split at h
    · next htask =>
      obtain rfl := Option.some.inj h
      exact entered_of_update he rfl rfl (htask ▸ .spawned) hk
    · cases h
  | attempt j outcome =>
    simp only [step, attempt, Option.bind_eq_bind, Option.bind_eq_some_iff] at h
    obtain ⟨e, he, h⟩ := h
    cases htask : e.task with
    | signing retry =>
      rw [htask] at h
      have hnext : ∀ task, (s.setTask j e task).cache.made = (s.cache.update j { e with task }).made :=
        fun task => rfl
      cases outcome with
      | signed signature =>
        obtain rfl := Option.some.inj h
        exact entered_of_update he (hnext _) rfl (htask ▸ .signed ..) hk
      | error message =>
        cases retry with
        | false =>
          obtain rfl := Option.some.inj h
          exact entered_of_update he (hnext _) rfl (htask ▸ .retried) hk
        | true =>
          obtain rfl := Option.some.inj h
          exact entered_of_update he (hnext _) rfl (htask ▸ .failed _) hk
      | timedOut =>
        cases retry with
        | false =>
          obtain rfl := Option.some.inj h
          exact entered_of_update he (hnext _) rfl (htask ▸ .retried) hk
        | true =>
          obtain rfl := Option.some.inj h
          exact entered_of_update he (hnext _) rfl (htask ▸ .failed _) hk
    | _ =>
      rw [htask] at h
      cases h
  | evict j =>
    simp only [step, evict, Option.bind_eq_bind, Option.bind_eq_some_iff] at h
    obtain ⟨e, he, h⟩ := h
    split at h
    · next htask =>
      obtain rfl := Option.some.inj h
      exact entered_of_update he (update_evict_made ..) rfl (htask ▸ .evicted _) hk
    · cases h
  | send j =>
    simp only [step, send, Option.bind_eq_bind, Option.bind_eq_some_iff] at h
    obtain ⟨e, he, h⟩ := h
    split at h
    · next htask =>
      obtain rfl := Option.some.inj h
      exact entered_of_update he rfl rfl (htask ▸ .sent _) hk
    · cases h
  | die j =>
    simp only [step, die, Option.bind_eq_bind, Option.bind_eq_some_iff] at h
    obtain ⟨e, he, h⟩ := h
    split at h
    case h_1 htask =>
      obtain rfl := Option.some.inj h
      exact entered_of_update he rfl rfl (htask ▸ .signingDied _) hk
    case h_2 htask =>
      obtain rfl := Option.some.inj h
      exact entered_of_update he rfl rfl (htask ▸ .evictingDied _) hk
    case h_3 htask =>
      obtain rfl := Option.some.inj h
      exact entered_of_update he rfl rfl (htask ▸ .sendingDied _) hk
    case h_4 => cases h
  | poll j =>
    simp only [step, poll, Option.bind_eq_bind, Option.bind_eq_some_iff] at h
    obtain ⟨c, -, e, he, h⟩ := h
    split at h
    · split at h
      · obtain rfl := Option.some.inj h
        exact .kept hk rfl rfl
      · obtain rfl := Option.some.inj h
        exact .kept hk rfl rfl
      · split at h
        · obtain rfl := Option.some.inj h
          rw [setPhase, SignatureCache.evict_made] at hk
          exact .kept hk rfl rfl
        · split at h
          · obtain rfl := Option.some.inj h
            exact .kept hk rfl rfl
          · cases h
    · cases h
  | disconnect j =>
    simp only [step, disconnect, Option.bind_eq_bind, Option.bind_eq_some_iff] at h
    obtain ⟨c, -, h⟩ := h
    split at h
    · obtain rfl := Option.some.inj h
      exact .kept hk rfl rfl
    · cases h

/-- Where a call of a new state comes from. -/
inductive Joined (s s' : SignerState) (j : ℕ) (c' : Call) : Prop
  | stayed {c : Call} (hj : s.calls[j]? = some c) (hentry : c'.entry = c.entry)
    (htimeout : ∀ message, c'.phase = .timedOut message → c.phase = .timedOut message)
  | gaveUp {c : Call} {e : CacheEntry} (hj : s.calls[j]? = some c) (hentry : c'.entry = c.entry)
    (he : s.cache.made[c.entry]? = some e) (halive : e.senderAlive = true)
    (hspent : e.startedAt + waitTimeout ≤ s.now)
  | joined (hj : s.calls[j]? = none) (hphase : ∀ message, c'.phase ≠ .timedOut message)

omit [Keccak] in
/-- A call moves on by itself. -/
lemma joined_of_set {i j : ℕ} {c c' : Call} {phase : CallPhase} (hi : s.calls[i]? = some c)
    (hset : s'.calls = s.calls.set i { c with phase := phase })
    (hmoved : Joined s s' i { c with phase := phase }) (hj : s'.calls[j]? = some c') :
    Joined s s' j c' := by
  rw [hset] at hj
  by_cases hij : i = j
  · subst hij
    rw [List.getElem?_set_self', hi] at hj
    obtain rfl := Option.some.inj hj
    exact hmoved
  · rw [List.getElem?_set_ne hij] at hj
    exact .stayed hj rfl fun _ h => h

lemma joined_step {event : SignEvent} (h : s.step cfg event = some s') {j : ℕ} {c' : Call}
    (hj : s'.calls[j]? = some c') : Joined s s' j c' := by
  cases event with
  | tick elapsed =>
    obtain rfl := Option.some.inj h
    exact .stayed hj rfl fun _ h => h
  | call context =>
    obtain rfl := Option.some.inj h
    have hcalls : ∃ c : Call, (s.call cfg context).calls = s.calls ++ [c] ∧
        ∀ message, c.phase ≠ .timedOut message := by
      unfold call
      split <;> exact ⟨_, rfl, fun message hphase => by cases hphase⟩
    obtain ⟨c, hc, hphase⟩ := hcalls
    rw [hc] at hj
    rcases lt_trichotomy j s.calls.length with hlt | rfl | hgt
    · rw [List.getElem?_append_left hlt] at hj
      exact .stayed hj rfl fun _ h => h
    · rw [List.getElem?_append_right le_rfl, Nat.sub_self] at hj
      obtain rfl := Option.some.inj hj
      exact .joined (List.getElem?_eq_none le_rfl) hphase
    · rw [List.getElem?_eq_none (by simpa using hgt)] at hj
      cases hj
  | spawn i =>
    simp only [step, spawn, Option.bind_eq_bind, Option.bind_eq_some_iff] at h
    obtain ⟨c, hc, e, he, h⟩ := h
    split at h
    · obtain rfl := Option.some.inj h
      exact joined_of_set hc rfl (.stayed hc rfl fun _ h => by cases h) hj
    · cases h
  | attempt k outcome =>
    simp only [step, attempt, Option.bind_eq_bind, Option.bind_eq_some_iff] at h
    obtain ⟨e, he, h⟩ := h
    split at h
    case h_5 => cases h
    all_goals
      obtain rfl := Option.some.inj h
      exact .stayed hj rfl fun _ h => h
  | evict k =>
    simp only [step, evict, Option.bind_eq_bind, Option.bind_eq_some_iff] at h
    obtain ⟨e, he, h⟩ := h
    split at h
    · obtain rfl := Option.some.inj h
      exact .stayed hj rfl fun _ h => h
    · cases h
  | send k =>
    simp only [step, send, Option.bind_eq_bind, Option.bind_eq_some_iff] at h
    obtain ⟨e, he, h⟩ := h
    split at h
    · obtain rfl := Option.some.inj h
      exact .stayed hj rfl fun _ h => h
    · cases h
  | die k =>
    simp only [step, die, Option.bind_eq_bind, Option.bind_eq_some_iff] at h
    obtain ⟨e, he, h⟩ := h
    split at h
    case h_4 => cases h
    all_goals
      obtain rfl := Option.some.inj h
      exact .stayed hj rfl fun _ h => h
  | poll i =>
    simp only [step, poll, Option.bind_eq_bind, Option.bind_eq_some_iff] at h
    obtain ⟨c, hc, e, he, h⟩ := h
    split at h
    · split at h
      · obtain rfl := Option.some.inj h
        exact joined_of_set hc rfl (.stayed hc rfl fun _ h => by cases h) hj
      · obtain rfl := Option.some.inj h
        exact joined_of_set hc rfl (.stayed hc rfl fun _ h => by cases h) hj
      · split at h
        · obtain rfl := Option.some.inj h
          exact joined_of_set hc rfl (.stayed hc rfl fun _ h => by cases h) hj
        · next halive =>
          split at h
          · next hspent =>
            obtain rfl := Option.some.inj h
            have hend : e.startedAt + waitTimeout ≤ s.now := by
              rcases le_total e.startedAt s.now with hle | hle
              · rw [Nat.add_comm]
                exact Nat.add_le_of_le_sub hle hspent
              · rw [Nat.sub_eq_zero_of_le hle] at hspent
                exact absurd hspent (by decide)
            exact joined_of_set hc rfl (.gaveUp hc rfl he (by simpa using halive) hend) hj
          · cases h
    · cases h
  | disconnect i =>
    simp only [step, disconnect, Option.bind_eq_bind, Option.bind_eq_some_iff] at h
    obtain ⟨c, hc, h⟩ := h
    split at h
    · obtain rfl := Option.some.inj h
      exact joined_of_set hc rfl (.stayed hc rfl fun _ h => by cases h) hj
    · cases h

end SignerState
def CallPhase.isWaiting : CallPhase → Bool
  | .waiting => true
  | _ => false

namespace SignerState
variable [Keccak] {cfg : SignerConfig} {s s' : SignerState}

/-- Only time passes with time. -/
lemma now_step {event : SignEvent} (h : s.step cfg event = some s') :
    s'.now = s.now ∨ ∃ elapsed, event = .tick elapsed ∧ s' = { s with now := s.now + elapsed } := by
  cases event with
  | tick elapsed => exact .inr ⟨elapsed, rfl, (Option.some.inj h).symm⟩
  | call context =>
    obtain rfl := Option.some.inj h
    left
    unfold call
    split <;> rfl
  | _ =>
    left
    simp only [step, spawn, attempt, evict, send, die, poll, disconnect, Option.bind_eq_bind,
      Option.bind_eq_some_iff] at h
    grind [setTask, setPhase]

end SignerState

/-- A signer and its clocks. -/
structure TimedSigner where
  signer : SignerState
  since : ℕ → ℕ
  joined : ℕ → ℕ

namespace TimedSigner
variable [Keccak] (cfg : SignerConfig) (lag : ℕ)

def boot : TimedSigner := ⟨.boot, fun _ => 0, fun _ => 0⟩

/-- The task of an entry may be where it is until the instant `t`. -/
def taskInTime (s : TimedSigner) (t : ℕ) (k : ℕ) : Bool :=
  (s.signer.cache.made[k]?).all fun e => (e.task.within lag).all fun d => t ≤ s.since k + d

/-- A call that waits on an entry that is settled, or closed, is woken by the instant `t`. -/
def callInTime (s : TimedSigner) (t : ℕ) (j : ℕ) : Bool :=
  (s.signer.calls[j]?).all fun c => (s.signer.cache.made[c.entry]?).all fun e =>
    !c.phase.isWaiting || e.senderAlive || decide (t ≤ max (s.since c.entry) (s.joined j) + lag)

def inTime (s : TimedSigner) : SignEvent → Bool
  | .tick elapsed =>
    (List.range s.signer.cache.made.length).all (s.taskInTime lag (s.signer.now + elapsed)) &&
      (List.range s.signer.calls.length).all (s.callInTime lag (s.signer.now + elapsed))
  | _ => true

def step (s : TimedSigner) (event : SignEvent) : Option TimedSigner :=
  if s.inTime lag event then
    (s.signer.step cfg event).map fun s' =>
      { signer := s'
        since := fun k =>
          if (s'.cache.made[k]?).map CacheEntry.task = (s.signer.cache.made[k]?).map CacheEntry.task
          then s.since k else s'.now
        joined := fun j =>
          if (s.signer.calls[j]?).any (·.phase.isWaiting) then s.joined j else s'.now }
  else none

def run (events : List SignEvent) : Option TimedSigner :=
  Machine.run (step cfg lag) boot events

/-- The clocks and the deadlines of a signer whose runtime is at most `lag` late. -/
structure Punctual (s : TimedSigner) : Prop where
  begun : ∀ k e, s.signer.cache.made[k]? = some e → e.startedAt ≤ s.since k
  reached : ∀ k e, s.signer.cache.made[k]? = some e →
    s.since k ≤ e.startedAt + e.task.reached lag
  within : ∀ k e d, s.signer.cache.made[k]? = some e → e.task.within lag = some d →
    s.signer.now ≤ s.since k + d
  past : ∀ k e, s.signer.cache.made[k]? = some e → s.since k ≤ s.signer.now
  started : ∀ j c e, s.signer.calls[j]? = some c → s.signer.cache.made[c.entry]? = some e →
    e.startedAt ≤ s.joined j
  woken : ∀ j c e, s.signer.calls[j]? = some c → c.phase.isWaiting = true →
    s.signer.cache.made[c.entry]? = some e → e.senderAlive = false →
    s.signer.now ≤ max (s.since c.entry) (s.joined j) + lag
  patient : ∀ (j : ℕ) c message, s.signer.calls[j]? = some c → c.phase ≠ .timedOut message

variable {cfg lag} {s s' : TimedSigner}

omit [Keccak] in
theorem boot_punctual : boot.Punctual lag := by
  constructor <;> intros <;> simp_all [boot, SignerState.boot, SignatureCache.new]

/-- What a step does to the clocks. -/
theorem step_eq {event : SignEvent} (h : s.step cfg lag event = some s') :
    s.inTime lag event = true ∧ s.signer.step cfg event = some s'.signer ∧
      (∀ k, s'.since k =
        if (s'.signer.cache.made[k]?).map CacheEntry.task =
          (s.signer.cache.made[k]?).map CacheEntry.task then s.since k else s'.signer.now) ∧
      ∀ j, s'.joined j =
        if (s.signer.calls[j]?).any (·.phase.isWaiting) then s.joined j else s'.signer.now := by
  unfold step at h
  split at h
  · next hguard =>
    obtain ⟨t, ht, rfl⟩ := Option.map_eq_some_iff.mp h
    exact ⟨hguard, ht, fun _ => rfl, fun _ => rfl⟩
  · cases h

/-- The clock of an entry of a new state. -/
inductive Clock (s s' : TimedSigner) (k : ℕ) (e' : CacheEntry) : Prop
  | kept {e : CacheEntry} (hk : s.signer.cache.made[k]? = some e)
    (hstart : e'.startedAt = e.startedAt) (htask : e'.task = e.task) (hsince : s'.since k = s.since k)
  | moved {e : CacheEntry} (hk : s.signer.cache.made[k]? = some e)
    (hstart : e'.startedAt = e.startedAt) (htask : e.task.Next e'.task)
    (hsince : s'.since k = s'.signer.now)
  | made (hk : s.signer.cache.made[k]? = none) (hstart : e'.startedAt = s.signer.now)
    (htask : e'.task = .held) (hsince : s'.since k = s'.signer.now)

theorem clock_step {event : SignEvent} (h : s.step cfg lag event = some s') {k : ℕ}
    {e' : CacheEntry} (hk : s'.signer.cache.made[k]? = some e') : Clock s s' k e' := by
  obtain ⟨-, hstep, hsince, -⟩ := step_eq h
  have hsince := hsince k
  rw [hk] at hsince
  rcases SignerState.entered_step hstep hk with ⟨he, hstart, htask⟩ | ⟨he, hstart, htask⟩ | ⟨he, hstart, htask⟩
  · rw [he, if_pos (by simp [htask])] at hsince
    exact .kept he hstart htask hsince
  · rw [he, if_neg (by simpa using SignTask.next_ne htask)] at hsince
    exact .moved he hstart htask hsince
  · rw [he, if_neg (by simp)] at hsince
    exact .made he hstart htask hsince

omit [Keccak] in
/-- A sign that is under way has its whole budget still within the wait. -/
lemma Punctual.under_way (hs : s.Punctual lag) {k : ℕ} {e : CacheEntry}
    (hk : s.signer.cache.made[k]? = some e) (halive : e.senderAlive = true) :
    s.signer.now ≤ e.startedAt + (2 * signTimeout + 5 * lag) := by
  obtain ⟨d, hd⟩ := CacheEntry.within_of_alive lag halive
  calc s.signer.now ≤ s.since k + d := hs.within k e d hk hd
    _ ≤ e.startedAt + e.task.reached lag + d := Nat.add_le_add_right (hs.reached k e hk) d
    _ ≤ e.startedAt + (2 * signTimeout + 5 * lag) := by
      rw [Nat.add_assoc]
      exact Nat.add_le_add_left (SignTask.reached_within hd) _

theorem Punctual.tick {elapsed : Nanos} (hs : s.Punctual lag)
    (h : s.step cfg lag (.tick elapsed) = some s') : s'.Punctual lag := by
  obtain ⟨hguard, hstep, hsince, hjoined⟩ := step_eq h
  have hsigner : s'.signer = { s.signer with now := s.signer.now + elapsed } :=
    (Option.some.inj hstep).symm
  have hcache : s'.signer.cache = s.signer.cache := by rw [hsigner]
  have hcalls : s'.signer.calls = s.signer.calls := by rw [hsigner]
  have hnow : s'.signer.now = s.signer.now + elapsed := by rw [hsigner]
  have hlater : s.signer.now ≤ s'.signer.now := hnow ▸ Nat.le_add_right ..
  have hsame : ∀ k, s'.since k = s.since k := fun k => by rw [hsince, hcache, if_pos rfl]
  simp only [inTime, Bool.and_eq_true, List.all_eq_true, List.mem_range, ← hnow] at hguard
  obtain ⟨htasks, hwakes⟩ := hguard
  constructor
  · intro k e hk
    rw [hcache] at hk
    rw [hsame]
    exact hs.begun k e hk
  · intro k e hk
    rw [hcache] at hk
    rw [hsame]
    exact hs.reached k e hk
  · intro k e d hk hd
    rw [hcache] at hk
    have htask := htasks k (List.getElem?_eq_some_iff.mp hk).1
    simp only [taskInTime, hk, hd, Option.all_some, decide_eq_true_eq] at htask
    rw [hsame]
    exact htask
  · intro k e hk
    rw [hcache] at hk
    rw [hsame]
    exact (hs.past k e hk).trans hlater
  · intro j c e hj he
    rw [hcalls] at hj
    rw [hcache] at he
    rw [hjoined]
    split
    · exact hs.started j c e hj he
    · exact ((hs.begun _ e he).trans (hs.past _ e he)).trans hlater
  · intro j c e hj hwaiting he hgone
    rw [hcalls] at hj
    rw [hcache] at he
    have hcall := hwakes j (List.getElem?_eq_some_iff.mp hj).1
    simp only [callInTime, hj, he, Option.all_some, hwaiting, hgone, Bool.not_true, Bool.false_or,
      decide_eq_true_eq] at hcall
    have hwas : (s.signer.calls[j]?).any (·.phase.isWaiting) = true := by
      rw [hj]
      exact hwaiting
    rw [hsame, hjoined, if_pos hwas]
    exact hcall
  · intro j c message hj
    rw [hcalls] at hj
    exact hs.patient j c message hj

theorem Punctual.move {event : SignEvent} (hlag : 5 * lag < seconds 1)
    (hsound : SignerState.Sound cfg s.signer) (hs : s.Punctual lag)
    (h : s.step cfg lag event = some s') (hnow : s'.signer.now = s.signer.now) :
    s'.Punctual lag := by
  obtain ⟨-, hstep, -, hjoined⟩ := step_eq h
  -- a call that stays waits for the entry it waited for, which was there before
  have hfrom : ∀ (j : ℕ) (c : Call), s'.signer.calls[j]? = some c → s.signer.calls[j]? ≠ none →
      ∃ c₀, s.signer.calls[j]? = some c₀ ∧ c.entry = c₀.entry ∧
        s.signer.cache.made[c₀.entry]? ≠ none := by
    intro j c hj hwas
    obtain ⟨c₀, hj₀, hsame⟩ : ∃ c₀, s.signer.calls[j]? = some c₀ ∧ c.entry = c₀.entry := by
      rcases SignerState.joined_step hstep hj with ⟨hj₀, hsame, -⟩ | ⟨hj₀, hsame, -, -, -⟩ |
        ⟨hnone, -⟩
      · exact ⟨_, hj₀, hsame⟩
      · exact ⟨_, hj₀, hsame⟩
      · exact absurd hnone hwas
    obtain ⟨e, he, -⟩ := hsound.calls c₀ (List.mem_of_getElem? hj₀)
    exact ⟨c₀, hj₀, hsame, by simp [he]⟩
  constructor
  · intro k e hk
    rcases clock_step h hk with ⟨he, hstart, -, hsince⟩ | ⟨he, hstart, -, hsince⟩ | ⟨-, hstart, -, hsince⟩
    · rw [hstart, hsince]
      exact hs.begun k _ he
    · rw [hstart, hsince, hnow]
      exact (hs.begun k _ he).trans (hs.past k _ he)
    · rw [hstart, hsince, hnow]
  · intro k e hk
    rcases clock_step h hk with ⟨he, hstart, htask, hsince⟩ | ⟨he, hstart, htask, hsince⟩ |
      ⟨-, hstart, htask, hsince⟩
    · rw [hstart, htask, hsince]
      exact hs.reached k _ he
    · rename_i e₀
      obtain ⟨d, hd, hnext⟩ := SignTask.reached_next lag htask
      rw [hstart, hsince, hnow]
      calc s.signer.now ≤ s.since k + d := hs.within k _ d he hd
        _ ≤ e₀.startedAt + e₀.task.reached lag + d := Nat.add_le_add_right (hs.reached k _ he) d
        _ ≤ e₀.startedAt + e.task.reached lag := by
          rw [Nat.add_assoc]
          exact Nat.add_le_add_left hnext _
    · rw [hstart, hsince, hnow]
      exact Nat.le_add_right ..
  · intro k e d hk hd
    rcases clock_step h hk with ⟨he, -, htask, hsince⟩ | ⟨-, -, -, hsince⟩ | ⟨-, -, -, hsince⟩
    · rw [hsince, hnow]
      exact hs.within k _ d he (htask ▸ hd)
    · rw [hsince]
      exact Nat.le_add_right ..
    · rw [hsince]
      exact Nat.le_add_right ..
  · intro k e hk
    rcases clock_step h hk with ⟨he, -, -, hsince⟩ | ⟨-, -, -, hsince⟩ | ⟨-, -, -, hsince⟩
    · rw [hsince, hnow]
      exact hs.past k _ he
    · exact hsince.le
    · exact hsince.le
  · intro j c e hj he
    have hmade : e.startedAt ≤ s'.signer.now := by
      rcases clock_step h he with ⟨he₀, hstart, -, -⟩ | ⟨he₀, hstart, -, -⟩ | ⟨-, hstart, -, -⟩
      · rw [hstart, hnow]
        exact (hs.begun _ _ he₀).trans (hs.past _ _ he₀)
      · rw [hstart, hnow]
        exact (hs.begun _ _ he₀).trans (hs.past _ _ he₀)
      · rw [hstart, hnow]
    rw [hjoined]
    split
    case isFalse => exact hmade
    case isTrue hwas =>
      obtain ⟨c₀, hj₀, hsame, hentry⟩ := hfrom j c hj (by rintro hnone; simp [hnone] at hwas)
      rw [hsame] at he
      rcases clock_step h he with ⟨he₀, hstart, -, -⟩ | ⟨he₀, hstart, -, -⟩ | ⟨hnone, -, -, -⟩
      · rw [hstart]
        exact hs.started j c₀ _ hj₀ he₀
      · rw [hstart]
        exact hs.started j c₀ _ hj₀ he₀
      · exact absurd hnone hentry
  · intro j c e hj hwaiting he hgone
    rw [hjoined]
    split
    case isFalse => exact (le_max_right _ _).trans (Nat.le_add_right ..)
    case isTrue hwas =>
      obtain ⟨c₀, hj₀, hsame, -⟩ := hfrom j c hj (by rintro hnone; simp [hnone] at hwas)
      rw [hj₀, Option.any_some] at hwas
      rw [hsame] at he ⊢
      rcases clock_step h he with ⟨he₀, -, htask, hsince⟩ | ⟨-, -, -, hsince⟩ | ⟨-, -, -, hsince⟩
      · rw [hsince, hnow]
        refine hs.woken j c₀ _ hj₀ hwas he₀ ?_
        unfold CacheEntry.senderAlive at hgone ⊢
        rw [← htask]
        exact hgone
      · rw [hsince]
        exact (le_max_left _ _).trans (Nat.le_add_right ..)
      · rw [hsince]
        exact (le_max_left _ _).trans (Nat.le_add_right ..)
  · intro j c message hj htimeout
    rcases SignerState.joined_step hstep hj with ⟨hj₀, -, hout⟩ | ⟨-, -, he, halive, hspent⟩ |
      ⟨-, hphase⟩
    · exact hs.patient j _ message hj₀ (hout message htimeout)
    · have hbudget := Nat.le_of_add_le_add_left (hspent.trans (hs.under_way he halive))
      unfold waitTimeout signTimeout seconds at *
      omega
    · exact hphase message htimeout

theorem Punctual.step {event : SignEvent} (hlag : 5 * lag < seconds 1)
    (hsound : SignerState.Sound cfg s.signer) (hs : s.Punctual lag)
    (h : s.step cfg lag event = some s') : s'.Punctual lag := by
  obtain ⟨-, hstep, -, -⟩ := step_eq h
  rcases SignerState.now_step hstep with hnow | ⟨elapsed, rfl, -⟩
  · exact hs.move hlag hsound h hnow
  · exact hs.tick h

theorem run_punctual {events : List SignEvent} (hlag : 5 * lag < seconds 1)
    (hrun : run cfg lag events = some s) :
    SignerState.Sound cfg s.signer ∧ s.Punctual lag := by
  have hkeeps : ∀ (s : TimedSigner) (event : SignEvent) s', True →
      SignerState.Sound cfg s.signer ∧ s.Punctual lag → s.step cfg lag event = some s' →
      SignerState.Sound cfg s'.signer ∧ s'.Punctual lag := by
    intro s event s' _ hs h
    obtain ⟨-, hstep, -, -⟩ := step_eq h
    exact ⟨hs.1.step hstep, hs.2.step hlag hs.1 h⟩
  exact Machine.run_invariant hkeeps (fun _ _ => trivial)
    ⟨SignerState.boot_sound cfg, boot_punctual⟩ hrun

/-- The wait outlasts every sign. On a runtime that is late by less than a fifth of the
slack of one second, no caller is ever told that it timed out: it gets what the sign, its
retry included, comes to. And it has it within ten seconds and six lags. -/
theorem wait_outlasts_every_sign {events : List SignEvent} (hlag : 5 * lag < seconds 1)
    (hrun : run cfg lag events = some s) {j : ℕ} {c : Call} (hj : s.signer.calls[j]? = some c) :
    (∀ message, c.phase ≠ .timedOut message) ∧
      (c.phase = .waiting → s.signer.now ≤ s.joined j + (2 * signTimeout + 6 * lag)) := by
  obtain ⟨hsound, hs⟩ := run_punctual hlag hrun
  refine ⟨fun message => hs.patient j c message hj, fun hwaiting => ?_⟩
  obtain ⟨e, he, -⟩ := hsound.calls c (List.mem_of_getElem? hj)
  have hstarted := hs.started j c e hj he
  cases halive : e.senderAlive with
  | true =>
    calc s.signer.now ≤ e.startedAt + (2 * signTimeout + 5 * lag) := hs.under_way he halive
      _ ≤ s.joined j + (2 * signTimeout + 6 * lag) := Nat.add_le_add hstarted (by omega)
  | false =>
    have hend : s.since c.entry ≤ s.joined j + (2 * signTimeout + 5 * lag) :=
      (hs.reached c.entry e he).trans (Nat.add_le_add hstarted (SignTask.reached_le lag _))
    calc s.signer.now ≤ max (s.since c.entry) (s.joined j) + lag :=
          hs.woken j c e hj (by rw [hwaiting]; rfl) he halive
      _ ≤ s.joined j + (2 * signTimeout + 5 * lag) + lag :=
        Nat.add_le_add_right (max_le hend (Nat.le_add_right ..)) lag
      _ = s.joined j + (2 * signTimeout + 6 * lag) := by ring

end TimedSigner

namespace Sample

/-- Both attempts of a sign time out, a tenth of a second late; a caller joins in between. -/
def blackholed : List SignEvent :=
  [.call [zeroSlot], .spawn 0, .tick (seconds 5 + seconds 1 / 10), .attempt 0 .timedOut,
    .tick (seconds 4), .call [zeroSlot], .tick (seconds 1 + seconds 1 / 10), .attempt 0 .timedOut,
    .evict 0, .send 0, .poll 0]

theorem blackholed_caller_is_still_in_time : ∃ s,
    TimedSigner.run productionSigner (seconds 1 / 10) blackholed = some s ∧
    s.signer.now ≤ s.joined 1 + (2 * signTimeout + 6 * (seconds 1 / 10)) := by
  have hrun : (TimedSigner.run productionSigner (seconds 1 / 10) blackholed).any (fun s =>
      (s.signer.calls[1]?).any (·.phase.isWaiting)) = true := by decide +kernel
  obtain ⟨s, hs, hwaits⟩ := (Option.any_eq_true _ _).mp hrun
  obtain ⟨c, hc, hwaiting⟩ := (Option.any_eq_true _ _).mp hwaits
  have hphase : c.phase = .waiting := by
    cases hc : c.phase <;> simp_all [CallPhase.isWaiting]
  obtain ⟨-, hbound⟩ := TimedSigner.wait_outlasts_every_sign (by decide) hs hc
  exact ⟨s, hs, hbound hphase⟩

end Sample
end OracleServer
