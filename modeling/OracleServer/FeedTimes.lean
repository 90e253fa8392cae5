import OracleServer.Subscription
import OracleServer.Sign

/-! How long the feed can be deaf. `READ_DEADLINE` runs from the last message, and only a
message moves it; after an error `run_loop` sleeps and tries again. Here the task of
`run_loop` runs against a clock: `lag` is how late the runtime takes a step that is ready,
and `send` how long a send to the socket may take. Neither a handshake nor a wait for a
first symbol has a limit in the source, and so none here. -/
namespace OracleServer

def readDeadline : ℕ := seconds 60

/-- Where the task of `run_loop` is: in a session, how many sends are at most between it
and the next `select!`. -/
inductive FeedSpot
  | waiting
  | dialing
  | connecting
  | opening
  | session (sends : ℕ)
  | ended
  | sleeping
  | stopped
  deriving DecidableEq

def SessionPlace.spot : SessionPlace → FeedSpot
  | .opening => .opening
  | .selecting => .session 0
  | .subscribing _ => .session 2
  | .unsubscribing _ => .session 1
  | .replying _ => .session 1

def FeedPhase.spot : FeedPhase → FeedSpot
  | .waiting => .waiting
  | .dialing => .dialing
  | .connecting => .connecting
  | .session _ place => place.spot
  | .ended _ _ => .ended
  | .sleeping => .sleeping
  | .stopped => .stopped

namespace FeedEvent

/-- A step of the task itself, and not of a reload. -/
def isOwn : FeedEvent → Bool
  | .publish _ | .forget _ | .close => false
  | _ => true

/-- The events that set the read deadline. -/
def hears (spot : FeedSpot) : FeedEvent → Bool
  | .message (some _) => true
  | .send (.ok ()) => spot = .opening
  | _ => false

def isChange : FeedEvent → Bool
  | .changed => true
  | _ => false

end FeedEvent

/-- Where one event of its own takes the task. -/
inductive FeedSpot.Next : FeedSpot → FeedEvent → FeedSpot → Prop
  | dialing : Next .waiting .check .dialing
  | stopped : Next .waiting .check .stopped
  | connecting : Next .dialing .dial .connecting
  | unlisted : Next .dialing .dial .ended
  | connected (result : Except ClientError Unit) : Next .connecting (.connect result) .opening
  | refused (result : Except ClientError Unit) : Next .connecting (.connect result) .ended
  | subscribed : Next .opening (.send (.ok ())) (.session 0)
  | unsubscribed (e : ClientError) : Next .opening (.send (.error e)) .ended
  | sent {n m : ℕ} (result : Except ClientError Unit) (hm : m ≤ n) :
    Next (.session (n + 1)) (.send result) (.session m)
  | cut {n : ℕ} (result : Except ClientError Unit) :
    Next (.session (n + 1)) (.send result) .ended
  | followed {m : ℕ} (hm : m ≤ 2) : Next (.session 0) .changed (.session m)
  | emptied : Next (.session 0) .changed .ended
  | read {m : ℕ} (message : Except String WsMessage) (hm : m ≤ 1) :
    Next (.session 0) (.message (some message)) (.session m)
  | closed (message : Option (Except String WsMessage)) :
    Next (.session 0) (.message message) .ended
  | silent : Next (.session 0) .deadline .ended
  | failed : Next .ended .resume .sleeping

namespace PricingSession
variable (s : PricingSession)

lemma settle_spot (next : List Symbol) :
    (s.settle next).spot = .session 0 ∨ (s.settle next).spot = .ended := by
  unfold settle
  dsimp only
  split
  · exact .inr rfl
  · exact .inl rfl

lemma unsubscribe_spot (next : List Symbol) :
    (∃ m ≤ 1, (s.unsubscribe next).spot = .session m) ∨ (s.unsubscribe next).spot = .ended := by
  unfold unsubscribe
  split
  · exact .inl ⟨1, le_rfl, rfl⟩
  · exact (s.settle_spot next).imp_left fun h => ⟨0, Nat.zero_le _, h⟩

lemma follow_spot (version : ℕ) (assets : List Symbol) :
    (∃ m ≤ 2, (s.follow version assets).spot = .session m) ∨
      (s.follow version assets).spot = .ended := by
  unfold follow
  dsimp only
  split
  · exact .inl ⟨2, le_rfl, rfl⟩
  · refine (unsubscribe_spot _ _).imp_left ?_
    rintro ⟨m, hm, h⟩
    exact ⟨m, hm.trans (by decide), h⟩

end PricingSession

namespace Feed
variable [Cbor] {cfg : FeedConfig} {f f' : Feed}

/-- What an event does to where the task is and to its backoff. -/
inductive Moved (cfg : FeedConfig) (f f' : Feed) : FeedEvent → Prop
  | outside {e : FeedEvent} (hown : e.isOwn = false) (hphase : f'.phase = f.phase)
    (hbackoff : f'.backoff = f.backoff) : Moved cfg f f' e
  | went {e : FeedEvent} (hown : e.isOwn = true) (hnext : f.phase.spot.Next e f'.phase.spot)
    (hbackoff : f'.backoff = f.backoff) : Moved cfg f f' e
  | rested (hspot : f.phase.spot = .ended) (hspot' : f'.phase.spot = .waiting)
    (hbackoff : f'.backoff = cfg.initialBackoff) : Moved cfg f f' .resume
  | woken (hspot : f.phase.spot = .sleeping) (hspot' : f'.phase.spot = .waiting)
    (hbackoff : f'.backoff = min (f.backoff * 2) cfg.maxBackoff) : Moved cfg f f' .wake

omit [Cbor] in
lemma start_spot (f : Feed) : f.start.spot = .opening ∨ f.start.spot = .ended := by
  unfold start
  dsimp only
  split
  · exact .inr rfl
  · exact .inl rfl

lemma receive_moved {s : PricingSession} (hphase : f.phase = .session s .selecting)
    (m : Option (Except String WsMessage)) : Moved cfg f (f.receive s m) (.message m) := by
  have hspot : f.phase.spot = .session 0 := by rw [hphase]; rfl
  have hread : ∀ message, Moved cfg f f (.message (some message)) := fun message =>
    .went rfl (by rw [hspot]; exact .read message (Nat.zero_le _)) rfl
  unfold receive
  split
  · exact .went rfl (hspot ▸ .closed _) rfl
  · exact .went rfl (hspot ▸ .closed _) rfl
  · exact hread _
  · exact .went rfl (hspot ▸ .read _ le_rfl) rfl
  · split
    · exact hread _
    · dsimp only
      split
      · exact .went rfl (hspot ▸ .read _ le_rfl) rfl
      · exact .went rfl (by dsimp only; rw [hspot]; exact .read _ (Nat.zero_le _)) rfl

omit [Cbor] in
lemma send_moved {s : PricingSession} {place : SessionPlace} (hphase : f.phase = .session s place)
    {m : Outbound} (hm : s.pending cfg place = some m) :
    Moved cfg f { f with phase := (s.push m).resume place } (.send (.ok ())) ∧
      ∀ e, Moved cfg f { f with phase := s.fail e place } (.send (.error e)) := by
  have hspot : f.phase.spot = place.spot := by rw [hphase]; rfl
  cases place with
  | opening => exact ⟨.went rfl (hspot ▸ .subscribed) rfl, fun e => .went rfl (hspot ▸ .unsubscribed e) rfl⟩
  | selecting => cases hm
  | subscribing next =>
    refine ⟨.went rfl ?_ rfl, fun e => .went rfl (hspot ▸ .cut _) rfl⟩
    rw [hspot]
    rcases (s.push m).unsubscribe_spot next with ⟨n, hn, h⟩ | h
    · exact (show FeedPhase.spot _ = _ from h) ▸ .sent _ hn
    · exact (show FeedPhase.spot _ = _ from h) ▸ .cut _
  | unsubscribing next =>
    refine ⟨.went rfl ?_ rfl, fun e => .went rfl (hspot ▸ .cut _) rfl⟩
    rw [hspot]
    rcases (s.push m).settle_spot next with h | h
    · exact (show FeedPhase.spot _ = _ from h) ▸ .sent _ le_rfl
    · exact (show FeedPhase.spot _ = _ from h) ▸ .cut _
  | replying reply =>
    exact ⟨.went rfl (hspot ▸ .sent _ le_rfl) rfl, fun e => .went rfl (hspot ▸ .sent _ le_rfl) rfl⟩

theorem moved_step {e : FeedEvent} (h : f.step cfg e = some f') : Moved cfg f f' e := by
  cases e with
  | publish assets => exact Option.some.inj h ▸ .outside rfl rfl rfl
  | forget symbols => exact Option.some.inj h ▸ .outside rfl rfl rfl
  | close => exact Option.some.inj h ▸ .outside rfl rfl rfl
  | check =>
    simp only [step] at h
    split at h
    · next hphase =>
      have hspot : f.phase.spot = .waiting := by rw [hphase]; rfl
      split at h
      · exact Option.some.inj h ▸ .went rfl (hspot ▸ .dialing) rfl
      · split at h
        · exact Option.some.inj h ▸ .went rfl (hspot ▸ .stopped) rfl
        · cases h
    · cases h
  | dial =>
    simp only [step] at h
    split at h
    · next hphase =>
      have hspot : f.phase.spot = .dialing := by rw [hphase]; rfl
      split at h
      · exact Option.some.inj h ▸ .went rfl (hspot ▸ .unlisted) rfl
      · exact Option.some.inj h ▸ .went rfl (hspot ▸ .connecting) rfl
    · cases h
  | connect result =>
    simp only [step] at h
    split at h
    · next hphase =>
      have hspot : f.phase.spot = .connecting := by rw [hphase]; rfl
      obtain rfl := Option.some.inj h
      refine .went rfl ?_ rfl
      rw [hspot]
      rcases f.start_spot with hstart | hstart
      · exact (show FeedPhase.spot _ = _ from hstart) ▸ .connected _
      · exact (show FeedPhase.spot _ = _ from hstart) ▸ .refused _
    · next hphase =>
      have hspot : f.phase.spot = .connecting := by rw [hphase]; rfl
      exact Option.some.inj h ▸ .went rfl (hspot ▸ .refused _) rfl
    · cases h
  | send result =>
    simp only [step] at h
    split at h
    · next s place hphase =>
      split at h
      · next m hm => exact Option.some.inj h ▸ (send_moved hphase hm).1
      · next m e hm => exact Option.some.inj h ▸ (send_moved hphase hm).2 e
      · cases h
    · cases h
  | changed =>
    simp only [step] at h
    split at h
    · next s hphase =>
      have hspot : f.phase.spot = .session 0 := by rw [hphase]; rfl
      split at h
      · cases h
      · split at h
        · obtain rfl := Option.some.inj h
          refine .went rfl ?_ rfl
          rw [hspot]
          rcases s.follow_spot f.version f.client.assets with ⟨m, hm, hfollow⟩ | hfollow
          · exact (show FeedPhase.spot _ = _ from hfollow) ▸ .followed hm
          · exact (show FeedPhase.spot _ = _ from hfollow) ▸ .emptied
        · split at h
          · exact Option.some.inj h ▸ .went rfl (hspot ▸ .followed (Nat.zero_le _)) rfl
          · cases h
    · cases h
  | message m =>
    simp only [step] at h
    split at h
    · next s hphase => exact Option.some.inj h ▸ receive_moved hphase m
    · cases h
  | deadline =>
    simp only [step] at h
    split at h
    · next s hphase =>
      have hspot : f.phase.spot = .session 0 := by rw [hphase]; rfl
      exact Option.some.inj h ▸ .went rfl (hspot ▸ .silent) rfl
    · cases h
  | resume =>
    simp only [step] at h
    split at h
    · next hphase =>
      have hspot : f.phase.spot = .ended := by rw [hphase]; rfl
      exact Option.some.inj h ▸ .rested hspot rfl rfl
    · next hphase =>
      have hspot : f.phase.spot = .ended := by rw [hphase]; rfl
      exact Option.some.inj h ▸ .went rfl (hspot ▸ .failed) rfl
    · cases h
  | wake =>
    simp only [step] at h
    split at h
    · next hphase =>
      have hspot : f.phase.spot = .sleeping := by rw [hphase]; rfl
      exact Option.some.inj h ▸ .woken hspot rfl rfl
    · cases h

/-- The loop goes on when it has a symbol, or nobody is left to add one. -/
lemma check_listed (h : f.step cfg .check = some f') :
    (f.client.assets.isEmpty && !f.closed) = false := by
  simp only [step] at h
  split at h
  · split at h
    · next hne =>
      rw [Bool.not_eq_true'] at hne
      rw [hne, Bool.false_and]
    · split at h
      · next hclosed => simp [hclosed]
      · cases h
  · cases h

end Feed

/-- The feed and its clocks. `since` is when the task came to where it is, `heard` when the
read deadline was set, and `changes` how often the task has followed its list since; `told`
is when a reload last did something, `left` when the last session or attempt ended, and
`retries` how often the task has slept since one ended cleanly. -/
structure TimedFeed where
  feed : Feed
  now : ℕ
  since : ℕ
  heard : ℕ
  changes : ℕ
  told : ℕ
  left : ℕ
  retries : ℕ

inductive FeedTick
  | pass (elapsed : ℕ)
  | event (e : FeedEvent)

def FeedTick.event? : FeedTick → Option FeedEvent
  | .pass _ => none
  | .event e => some e

namespace TimedFeed
variable [Cbor] (cfg : FeedConfig) (lag send : ℕ)

def boot (assets : List Symbol) : TimedFeed := ⟨.boot cfg assets, 0, 0, 0, 0, 0, 0, 0⟩

/-- The instant by which the task takes its next step, if it has one to take. -/
def due (s : TimedFeed) : Option ℕ :=
  match s.feed.phase.spot with
  | .waiting =>
    if s.feed.client.assets.isEmpty && !s.feed.closed then none else some (max s.since s.told + lag)
  | .dialing | .ended => some (s.since + lag)
  | .session 0 => some (max s.since (s.heard + readDeadline) + lag)
  | .session (_ + 1) | .opening => some (s.since + send)
  | .sleeping => some (s.since + s.feed.backoff + lag)
  | .connecting | .stopped => none

/-- Time passes up to what is due, and a timer fires once it has run out. -/
def inTime (s : TimedFeed) : FeedTick → Bool
  | .pass elapsed => (s.due lag send).all fun t => s.now + elapsed ≤ t
  | .event .deadline => s.heard + readDeadline ≤ s.now
  | .event .wake => s.since + s.feed.backoff ≤ s.now
  | .event _ => true

def stamped (s : TimedFeed) (e : FeedEvent) (feed : Feed) : TimedFeed where
  feed
  now := s.now
  since := if e.isOwn then s.now else s.since
  heard := if e.hears s.feed.phase.spot then s.now else s.heard
  changes :=
    if e.hears s.feed.phase.spot then 0 else if e.isChange then s.changes + 1 else s.changes
  told := if e.isOwn then s.told else s.now
  left := if e.isOwn && feed.phase.spot = .ended then s.now else s.left
  retries :=
    match e with
    | .wake => s.retries + 1
    | .resume => if feed.phase.spot = .waiting then 0 else s.retries
    | _ => s.retries

def step (s : TimedFeed) (tick : FeedTick) : Option TimedFeed :=
  if s.inTime lag send tick then
    match tick with
    | .pass elapsed => some { s with now := s.now + elapsed }
    | .event e => (s.feed.step cfg e).map (s.stamped e)
  else none

def run (assets : List Symbol) (ticks : List FeedTick) : Option TimedFeed :=
  Machine.run (step cfg lag send) (boot cfg assets) ticks

/-- How late the task can have come to where it is. -/
def Arrived (s : TimedFeed) : Prop :=
  match s.feed.phase.spot with
  | .session n =>
    s.since + n * send ≤ s.heard + readDeadline + send + s.changes * (lag + 2 * send)
  | .ended => s.since ≤ s.left
  | .sleeping => s.since ≤ s.left + lag
  | .waiting => s.since ≤ s.left + cfg.maxBackoff + 2 * lag
  | .dialing => s.since ≤ max (s.left + cfg.maxBackoff + 2 * lag) s.told + lag
  | .connecting | .opening | .stopped => True

structure Punctual (s : TimedFeed) : Prop where
  past : s.since ≤ s.now
  told : s.told ≤ s.now
  inTime : ∀ t, s.due lag send = some t → s.now ≤ t
  arrived : s.Arrived cfg lag send
  backoff : s.feed.backoff = min (cfg.initialBackoff * 2 ^ s.retries) cfg.maxBackoff

variable {cfg lag send} {s s' : TimedFeed}

omit [Cbor] in
lemma since_le_due {t : ℕ} (h : s.due lag send = some t) : s.since ≤ t := by
  unfold due at h
  split at h
  · split at h
    · cases h
    · obtain rfl := Option.some.inj h
      exact (le_max_left _ _).trans (Nat.le_add_right ..)
  · exact Option.some.inj h ▸ Nat.le_add_right ..
  · exact Option.some.inj h ▸ Nat.le_add_right ..
  · exact Option.some.inj h ▸ (le_max_left _ _).trans (Nat.le_add_right ..)
  · exact Option.some.inj h ▸ Nat.le_add_right ..
  · exact Option.some.inj h ▸ Nat.le_add_right ..
  · exact Option.some.inj h ▸ (Nat.le_add_right ..).trans (Nat.le_add_right ..)
  · cases h
  · cases h

omit [Cbor] in
lemma stamped_outside {e : FeedEvent} (hown : e.isOwn = false) (feed : Feed) :
    s.stamped e feed = { s with feed, told := s.now } := by
  cases e <;> first | rfl | cases hown

omit [Cbor] in
/-- What an event outside does leaves the task where it was. -/
lemma Punctual.outside (hs : s.Punctual cfg lag send) {feed : Feed}
    (hphase : feed.phase = s.feed.phase) (hbackoff : feed.backoff = s.feed.backoff) :
    Punctual cfg lag send { s with feed, told := s.now } where
  past := hs.past
  told := le_rfl
  inTime t ht := by
    have hdue := hs.inTime t
    unfold due at ht hdue
    rw [hphase, hbackoff] at ht
    cases hspot : s.feed.phase.spot with
    | waiting =>
      rw [hspot] at ht
      dsimp only at ht
      split at ht
      · cases ht
      · exact Option.some.inj ht ▸ (le_max_right _ _).trans (Nat.le_add_right ..)
    | session n =>
      rw [hspot] at ht hdue
      cases n <;> exact hdue ht
    | _ =>
      rw [hspot] at ht hdue
      exact hdue ht
  arrived := by
    have harrived := hs.arrived
    unfold Arrived at harrived ⊢
    rw [hphase]
    cases hspot : s.feed.phase.spot with
    | dialing =>
      rw [hspot] at harrived
      exact harrived.trans (Nat.add_le_add_right (max_le_max_left _ hs.told) _)
    | _ =>
      rw [hspot] at harrived
      exact harrived
  backoff := hbackoff.trans hs.backoff

/-- A step of the task brings it to its next place in time. -/
lemma Punctual.arrives (hs : s.Punctual cfg lag send) {e : FeedEvent} {feed : Feed}
    (hstep : s.feed.step cfg e = some feed) (hown : e.isOwn = true)
    (hnext : s.feed.phase.spot.Next e feed.phase.spot) :
    (s.stamped e feed).Arrived cfg lag send := by
  have harrived := hs.arrived
  have hdue := hs.inTime
  unfold Arrived at harrived
  unfold due at hdue
  unfold Arrived stamped
  dsimp only
  generalize hspot : s.feed.phase.spot = a at harrived hdue hnext
  generalize feed.phase.spot = b at hnext
  cases hnext with
  | dialing =>
    -- the loop could go on since it came here, or since the list was last told
    have hlisted := Feed.check_listed hstep
    simp only [hlisted] at hdue
    have hnow := hdue _ rfl
    simp only [FeedEvent.isOwn, if_true]
    exact hnow.trans (Nat.add_le_add_right (max_le_max_right _ harrived) _)
  | unlisted => simp [FeedEvent.isOwn]
  | refused => simp [FeedEvent.isOwn]
  | unsubscribed => simp [FeedEvent.isOwn]
  | cut => simp [FeedEvent.isOwn]
  | emptied => simp [FeedEvent.isOwn]
  | closed => simp [FeedEvent.isOwn]
  | silent => simp [FeedEvent.isOwn]
  | subscribed =>
    simp only [FeedEvent.isOwn, FeedEvent.hears, decide_true, if_true]
    omega
  | @sent n m result hm =>
    have hnow := hdue _ rfl
    have hsends := Nat.mul_le_mul_right send hm
    dsimp only at harrived
    rw [Nat.succ_mul n] at harrived
    have hdeaf : FeedEvent.hears (.session (n + 1)) (.send result) = false := by
      cases result <;> rfl
    simp only [FeedEvent.isOwn, FeedEvent.isChange, hdeaf, if_true, Bool.false_eq_true, if_false]
    omega
  | followed hm =>
    have hnow := hdue _ rfl
    have hsends := Nat.mul_le_mul_right send hm
    simp only [FeedEvent.isOwn, FeedEvent.isChange, FeedEvent.hears, if_true,
      Bool.false_eq_true, if_false, Nat.succ_mul s.changes]
    omega
  | read message hm =>
    have hsends := Nat.mul_le_mul_right send hm
    simp only [FeedEvent.isOwn, FeedEvent.hears, if_true]
    omega
  | failed =>
    have hnow := hdue _ rfl
    simp only [FeedEvent.isOwn, if_true, reduceCtorEq, decide_false, Bool.and_false,
      Bool.false_eq_true, if_false]
    omega
  | _ => trivial

omit [Cbor] in
lemma doubled (a b : ℕ) (k : ℕ) : min (min (a * 2 ^ k) b * 2) b = min (a * 2 ^ (k + 1)) b := by
  rw [pow_succ, ← Nat.mul_assoc]
  omega

theorem Punctual.event (hmax : cfg.initialBackoff ≤ cfg.maxBackoff) (hs : s.Punctual cfg lag send)
    {e : FeedEvent} {feed : Feed} (hstep : s.feed.step cfg e = some feed) :
    (s.stamped e feed).Punctual cfg lag send := by
  have hown_since : e.isOwn = true → (s.stamped e feed).since = s.now := fun hown => if_pos hown
  have hown_told : e.isOwn = true → (s.stamped e feed).told = s.told := fun hown => if_pos hown
  have hdue : e.isOwn = true → ∀ t, (s.stamped e feed).due lag send = some t → s.now ≤ t :=
    fun hown t ht => hown_since hown ▸ since_le_due ht
  have hle : ∀ t, s.due lag send = some t → s.now ≤ t := hs.inTime
  cases Feed.moved_step hstep with
  | outside hown hphase hbackoff =>
    rw [stamped_outside hown]
    exact hs.outside hphase hbackoff
  | went hown hnext hbackoff =>
    refine ⟨(hown_since hown).le, (hown_told hown).le.trans hs.told, hdue hown,
      hs.arrives hstep hown hnext, ?_⟩
    have hretries : (s.stamped e feed).retries = s.retries := by
      generalize hspot : feed.phase.spot = b at hnext
      generalize s.feed.phase.spot = a at hnext
      cases hnext <;> first | rfl | simp [stamped, hspot]
    rw [hretries]
    exact hbackoff.trans hs.backoff
  | rested hspot hspot' hbackoff =>
    refine ⟨le_rfl, hs.told, hdue rfl, ?_, ?_⟩
    · have harrived := hs.arrived
      unfold Arrived at harrived
      unfold due at hle
      rw [hspot] at harrived hle
      have hnow := hle _ rfl
      unfold Arrived
      simp only [stamped, hspot', FeedEvent.isOwn, if_true, reduceCtorEq, decide_false,
        Bool.and_false, Bool.false_eq_true, if_false]
      dsimp only at harrived
      omega
    · simp only [stamped, hspot', if_true, pow_zero, Nat.mul_one, hbackoff]
      exact (min_eq_left hmax).symm
  | woken hspot hspot' hbackoff =>
    have hcap : s.feed.backoff ≤ cfg.maxBackoff := hs.backoff.le.trans (min_le_right _ _)
    refine ⟨le_rfl, hs.told, hdue rfl, ?_, ?_⟩
    · have harrived := hs.arrived
      unfold Arrived at harrived
      unfold due at hle
      rw [hspot] at harrived hle
      have hnow := hle _ rfl
      unfold Arrived
      simp only [stamped, hspot', FeedEvent.isOwn, if_true, reduceCtorEq, decide_false,
        Bool.and_false, Bool.false_eq_true, if_false]
      dsimp only at harrived
      omega
    · simp only [stamped, hbackoff, hs.backoff]
      exact doubled _ _ _

omit [Cbor] in
lemma Punctual.pass (hs : s.Punctual cfg lag send) {elapsed : ℕ}
    (hin : s.inTime lag send (.pass elapsed) = true) :
    Punctual cfg lag send { s with now := s.now + elapsed } where
  past := hs.past.trans (Nat.le_add_right ..)
  told := hs.told.trans (Nat.le_add_right ..)
  inTime t ht := by
    have hall := (Option.all_eq_true _ _).mp hin t ht
    simpa using hall
  arrived := hs.arrived
  backoff := hs.backoff

theorem Punctual.step (hmax : cfg.initialBackoff ≤ cfg.maxBackoff) (hs : s.Punctual cfg lag send)
    {tick : FeedTick} (h : s.step cfg lag send tick = some s') : s'.Punctual cfg lag send := by
  unfold TimedFeed.step at h
  split at h
  · next hin =>
    cases tick with
    | pass elapsed => exact Option.some.inj h ▸ hs.pass hin
    | event e =>
      obtain ⟨feed, hstep, rfl⟩ := Option.map_eq_some_iff.mp h
      exact hs.event hmax hstep
  · cases h

omit [Cbor] in
lemma boot_punctual (hmax : cfg.initialBackoff ≤ cfg.maxBackoff) (assets : List Symbol) :
    (boot cfg assets).Punctual cfg lag send where
  past := le_rfl
  told := le_rfl
  inTime t _ := Nat.zero_le t
  arrived := Nat.zero_le _
  backoff := by simp [boot, Feed.boot, hmax]

theorem run_punctual (hmax : cfg.initialBackoff ≤ cfg.maxBackoff) {assets : List Symbol}
    {ticks : List FeedTick} (h : run cfg lag send assets ticks = some s) :
    s.Punctual cfg lag send := by
  have hall : ∀ t ∈ ticks, (fun _ : FeedTick => True) t := fun _ _ => trivial
  exact Machine.run_invariant (fun _ _ _ _ hs hstep => hs.step hmax hstep) hall
    (boot_punctual hmax assets) h

/-- The clock only restricts what the feed does: its events are a run of the feed itself. -/
theorem run_events {assets : List Symbol} {ticks : List FeedTick}
    (h : run cfg lag send assets ticks = some s) :
    Feed.run cfg assets (ticks.filterMap FeedTick.event?) = some s.feed := by
  induction ticks using List.reverseRecOn generalizing s with
  | nil =>
    obtain rfl := Option.some.inj h
    rfl
  | append_singleton ticks tick ih =>
    obtain ⟨m, hm, hstep⟩ := Machine.run_snoc.mp h
    rw [List.filterMap_append]
    unfold TimedFeed.step at hstep
    split at hstep
    · cases tick with
      | pass elapsed =>
        obtain rfl := Option.some.inj hstep
        rw [show [FeedTick.pass elapsed].filterMap FeedTick.event? = [] from rfl, List.append_nil]
        exact (ih hm : Feed.run cfg assets _ = some m.feed)
      | event e =>
        obtain ⟨feed, hfeed, rfl⟩ := Option.map_eq_some_iff.mp hstep
        exact Machine.run_snoc.mpr ⟨m.feed, ih hm, hfeed⟩
    · cases hstep

/-- What is due can be done. -/
theorem due_enabled {t : ℕ} (hdue : s.due lag send = some t) (hnow : t ≤ s.now) :
    ∃ e, e.isOwn = true ∧ (s.step cfg lag send (.event e)).isSome := by
  have henabled : ∀ e, s.inTime lag send (.event e) = true → (s.feed.step cfg e).isSome →
      (s.step cfg lag send (.event e)).isSome := by
    intro e hin hstep
    rw [TimedFeed.step, if_pos hin, Option.isSome_map]
    exact hstep
  unfold due at hdue
  cases hphase : s.feed.phase with
  | waiting =>
    rw [hphase] at hdue
    dsimp only [FeedPhase.spot] at hdue
    split at hdue
    · cases hdue
    · next hlisted =>
      refine ⟨.check, rfl, henabled _ rfl ?_⟩
      simp only [Feed.step, hphase]
      cases hempty : s.feed.client.assets.isEmpty with
      | false => rfl
      | true => simp_all
  | dialing =>
    refine ⟨.dial, rfl, henabled _ rfl ?_⟩
    simp only [Feed.step, hphase]
    split <;> rfl
  | connecting =>
    rw [hphase] at hdue
    cases hdue
  | stopped =>
    rw [hphase] at hdue
    cases hdue
  | ended last result =>
    refine ⟨.resume, rfl, henabled _ rfl ?_⟩
    cases result <;> simp [Feed.step, hphase]
  | sleeping =>
    rw [hphase] at hdue
    obtain rfl := Option.some.inj hdue
    refine ⟨.wake, rfl, henabled _ (decide_eq_true ?_) (by simp [Feed.step, hphase])⟩
    omega
  | session p place =>
    rw [hphase] at hdue
    cases place with
    | selecting =>
      obtain rfl := Option.some.inj hdue
      refine ⟨.deadline, rfl, henabled _ (decide_eq_true ?_) (by simp [Feed.step, hphase])⟩
      omega
    | _ => exact ⟨.send (.ok ()), rfl, henabled _ rfl (by simp [Feed.step, hphase,
        PricingSession.pending])⟩

/-- How late the loop can be: to take a silent session for dead, to rest after it, and to
dial again. The clock starts with the last message that came in, with the end of the session
or of the attempt, and there with the list's last change if that is later. -/
structure Prompt (cfg : FeedConfig) (lag send : ℕ) (s : TimedFeed) : Prop where
  heard : ∀ n, s.feed.phase.spot = .session n →
    s.now ≤ s.heard + readDeadline + (send + lag) + s.changes * (lag + 2 * send)
  rested : s.feed.phase.spot = .ended ∨ s.feed.phase.spot = .sleeping →
    s.now ≤ s.left + s.feed.backoff + 2 * lag
  dialed : s.feed.phase.spot = .dialing ∨
      s.feed.phase.spot = .waiting ∧ s.feed.client.assets ≠ [] →
    s.now ≤ max (s.left + cfg.maxBackoff + 2 * lag) s.told + 2 * lag
  backoff : s.feed.backoff = min (cfg.initialBackoff * 2 ^ s.retries) cfg.maxBackoff
  enabled : ∀ t, s.due lag send = some t → t ≤ s.now →
    ∃ e, e.isOwn = true ∧ (s.step cfg lag send (.event e)).isSome

lemma Punctual.prompt (hs : s.Punctual cfg lag send) : s.Prompt cfg lag send where
  heard n hspot := by
    have harrived := hs.arrived
    have hdue := hs.inTime
    unfold Arrived at harrived
    unfold due at hdue
    rw [hspot] at harrived hdue
    dsimp only at harrived
    cases n with
    | zero =>
      have hnow := hdue _ rfl
      omega
    | succ n =>
      have hnow := hdue _ rfl
      rw [Nat.succ_mul n] at harrived
      omega
  rested hspot := by
    have harrived := hs.arrived
    have hdue := hs.inTime
    unfold Arrived at harrived
    unfold due at hdue
    rcases hspot with hspot | hspot
    · rw [hspot] at harrived hdue
      have hnow := hdue _ rfl
      dsimp only at harrived
      omega
    · rw [hspot] at harrived hdue
      have hnow := hdue _ rfl
      dsimp only at harrived
      omega
  dialed hspot := by
    have harrived := hs.arrived
    have hdue := hs.inTime
    unfold Arrived at harrived
    unfold due at hdue
    rcases hspot with hspot | ⟨hspot, hlisted⟩
    · rw [hspot] at harrived hdue
      have hnow := hdue _ rfl
      dsimp only at harrived
      omega
    · have hempty : s.feed.client.assets.isEmpty = false := by simpa using hlisted
      rw [hspot] at harrived hdue
      simp only [hempty, Bool.false_and, Bool.false_eq_true, if_false] at hdue
      have hnow := hdue _ rfl
      dsimp only at harrived
      omega
  backoff := hs.backoff
  enabled _ ht hnow := due_enabled ht hnow

end TimedFeed

namespace Sample

/-- A message after ten seconds, and then none. -/
def silentWire : List FeedTick :=
  [.event .check, .event .dial, .event (.connect (.ok ())), .event (.send (.ok ())),
    .pass (seconds 10), .event (.message (some (.ok .other))), .pass (seconds 60),
    .event .deadline, .event .resume, .pass (seconds 1), .event .wake, .event .check]

end Sample

end OracleServer
