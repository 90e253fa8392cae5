import OracleServer.SystemSafety

/-! What pricing is subscribed to, against what the server runs. A session of the socket
task remembers which version of the list it saw; `Sees` ties the version to the list, and
so, once a reload has been carried out, to the running set. -/
namespace OracleServer

/-- A session is behind the list, or has it. -/
def PricingSession.Sees (version : ℕ) (assets : List Symbol) (s : PricingSession) : Prop :=
  s.seen ≤ version ∧ (s.seen = version → s.last = assets)

def FeedPhase.Sees (version : ℕ) (assets : List Symbol) : FeedPhase → Prop
  | .session s _ => s.Sees version assets
  | _ => True

namespace PricingSession
variable {version : ℕ} {assets : List Symbol} {s : PricingSession}

lemma settle_sees (h : s.Sees version assets) (next : List Symbol) :
    (s.settle next).Sees version assets := by
  unfold settle
  dsimp only
  split
  · trivial
  · exact h

lemma unsubscribe_sees (h : s.Sees version assets) (next : List Symbol) :
    (s.unsubscribe next).Sees version assets := by
  unfold unsubscribe
  split
  · exact h
  · exact settle_sees h next

lemma follow_sees (s : PricingSession) (version : ℕ) (assets : List Symbol) :
    (s.follow version assets).Sees version assets := by
  unfold follow
  dsimp only
  split
  · exact ⟨le_rfl, fun _ => rfl⟩
  · exact unsubscribe_sees ⟨le_rfl, fun _ => rfl⟩ _

lemma resume_sees (h : s.Sees version assets) (place : SessionPlace) :
    (s.resume place).Sees version assets := by
  cases place with
  | subscribing next => exact unsubscribe_sees h next
  | unsubscribing next => exact settle_sees h next
  | _ => exact h

lemma fail_sees (h : s.Sees version assets) (e : ClientError) (place : SessionPlace) :
    (s.fail e place).Sees version assets := by
  cases place with
  | replying m => exact h
  | _ => trivial

end PricingSession

namespace Feed
variable [Cbor] {cfg : FeedConfig} {f f' : Feed}

def Sees (f : Feed) : Prop := f.phase.Sees f.version f.client.assets

omit [Cbor] in
lemma start_sees (f : Feed) : f.start.Sees f.version f.client.assets := by
  unfold start
  dsimp only
  split
  · trivial
  · exact ⟨le_rfl, fun _ => rfl⟩

lemma receive_sees {s : PricingSession} (hphase : f.phase = .session s .selecting) (h : f.Sees)
    (m : Option (Except String WsMessage)) : (f.receive s m).Sees := by
  have hs : s.Sees f.version f.client.assets := by
    unfold Sees at h
    rwa [hphase] at h
  unfold receive
  split
  · trivial
  · trivial
  · exact h
  · exact hs
  · split
    · exact h
    · dsimp only
      split
      · exact hs
      · exact h

theorem sees_step {e : FeedEvent} (h : f.Sees) (hstep : f.step cfg e = some f') : f'.Sees := by
  have hkept : ∀ {s place}, f.phase = .session s place → s.Sees f.version f.client.assets := by
    intro s place hphase
    unfold Sees at h
    rwa [hphase] at h
  cases e with
  | publish assets =>
    obtain rfl := Option.some.inj hstep
    cases hphase : f.phase with
    | session s place =>
      have hbehind := (hkept hphase).1
      exact ⟨Nat.le_succ_of_le hbehind, fun hseen => by dsimp only at hseen; omega⟩
    | _ => trivial
  | forget symbols => exact Option.some.inj hstep ▸ h
  | close => exact Option.some.inj hstep ▸ h
  | check =>
    simp only [step] at hstep
    split at hstep
    · split at hstep
      · exact Option.some.inj hstep ▸ trivial
      · split at hstep
        · exact Option.some.inj hstep ▸ trivial
        · cases hstep
    · cases hstep
  | dial =>
    simp only [step] at hstep
    split at hstep
    · split at hstep <;> exact Option.some.inj hstep ▸ trivial
    · cases hstep
  | connect result =>
    simp only [step] at hstep
    split at hstep
    · exact Option.some.inj hstep ▸ f.start_sees
    · exact Option.some.inj hstep ▸ trivial
    · cases hstep
  | send result =>
    simp only [step] at hstep
    split at hstep
    · next s place hphase =>
      have hs := hkept hphase
      split at hstep
      · next m _ =>
        obtain rfl := Option.some.inj hstep
        exact PricingSession.resume_sees (s := s.push m) hs place
      · next e _ =>
        obtain rfl := Option.some.inj hstep
        exact PricingSession.fail_sees hs e place
      · cases hstep
    · cases hstep
  | changed =>
    simp only [step] at hstep
    split at hstep
    · next s hphase =>
      split at hstep
      · cases hstep
      · split at hstep
        · obtain rfl := Option.some.inj hstep
          exact s.follow_sees _ _
        · split at hstep
          · obtain rfl := Option.some.inj hstep
            have hs := hkept hphase
            exact hs
          · cases hstep
    · cases hstep
  | message m =>
    simp only [step] at hstep
    split at hstep
    · next s hphase =>
      obtain rfl := Option.some.inj hstep
      exact receive_sees hphase h m
    · cases hstep
  | deadline =>
    simp only [step] at hstep
    split at hstep
    · exact Option.some.inj hstep ▸ trivial
    · cases hstep
  | resume =>
    simp only [step] at hstep
    split at hstep
    · exact Option.some.inj hstep ▸ trivial
    · exact Option.some.inj hstep ▸ trivial
    · cases hstep
  | wake =>
    simp only [step] at hstep
    split at hstep
    · exact Option.some.inj hstep ▸ trivial
    · cases hstep

theorem run_sees {assets : List Symbol} {es : List FeedEvent} (h : run cfg assets es = some f) :
    f.Sees :=
  Machine.run_invariant (fun _ _ _ (_ : True) hf hstep => sees_step hf hstep) (fun _ _ => trivial)
    (show (boot cfg assets).Sees from trivial) h

end Feed

/-- The session has followed the list: it waits with the list, or ended with it when empty. -/
def FeedPhase.CaughtUp (version : ℕ) (assets : List Symbol) : FeedPhase → Prop
  | .session s .selecting => s.seen = version ∧ s.last = assets
  | .ended (some s) (.ok ()) => s.last = assets ∧ assets = []
  | _ => False

namespace Feed
variable [Cbor] {cfg : FeedConfig} {f : Feed} {s : PricingSession}

/-- `n` sends, none of which fails, end with the list followed. -/
def Follows (cfg : FeedConfig) (n : ℕ) (f f' : Feed) : Prop :=
  Machine.run (step cfg) f (List.replicate n (.send (.ok ()))) = some f' ∧
    f'.client = f.client ∧ f'.version = f.version ∧ f'.phase.CaughtUp f.version f.client.assets

omit [Cbor] in
lemma settle_caughtUp (hseen : s.seen = f.version) (hlast : s.last = f.client.assets) :
    (s.settle (btreeSet f.client.assets)).CaughtUp f.version f.client.assets := by
  unfold PricingSession.settle
  dsimp only
  split
  · next hempty => exact ⟨hlast, btreeSet_eq_nil.mp (List.isEmpty_iff.mp hempty)⟩
  · exact ⟨hseen, hlast⟩

variable (cfg)

lemma step_sent {place : SessionPlace} {m : Outbound} (hphase : f.phase = .session s place)
    (hm : s.pending cfg place = some m) :
    f.step cfg (.send (.ok ())) = some { f with phase := (s.push m).resume place } := by
  simp [step, hphase, hm]

lemma unsubscribe_follows (hseen : s.seen = f.version) (hlast : s.last = f.client.assets)
    (hphase : f.phase = s.unsubscribe (btreeSet f.client.assets)) :
    ∃ n ≤ 1, ∃ f', Follows cfg n f f' := by
  unfold PricingSession.unsubscribe at hphase
  split at hphase
  · exact ⟨1, le_rfl, _, Machine.run_cons.mpr ⟨_, step_sent cfg hphase rfl, rfl⟩, rfl, rfl,
      settle_caughtUp (s := s.push _) hseen hlast⟩
  · exact ⟨0, Nat.zero_le _, f, rfl, rfl, rfl, hphase ▸ settle_caughtUp hseen hlast⟩

lemma follow_follows (hphase : f.phase = s.follow f.version f.client.assets) :
    ∃ n ≤ 2, ∃ f', Follows cfg n f f' := by
  let next := btreeSet f.client.assets
  let seen : PricingSession := { s with seen := f.version, last := f.client.assets }
  unfold PricingSession.follow at hphase
  dsimp only at hphase
  split at hphase
  · let m := Outbound.frame (.subscribe cfg.consumer (seen.added next))
    obtain ⟨n, hn, f', hrun, hfollowed⟩ := unsubscribe_follows cfg (s := seen.push m)
      (f := { f with phase := (seen.push m).unsubscribe next }) rfl rfl rfl
    have hsent := step_sent cfg (s := seen) hphase rfl
    exact ⟨n + 1, Nat.succ_le_succ hn, f', Machine.run_cons.mpr ⟨_, hsent, hrun⟩, hfollowed⟩
  · obtain ⟨n, hn, h⟩ := unsubscribe_follows cfg (s := seen) rfl rfl hphase
    exact ⟨n, Nat.le_succ_of_le hn, h⟩

/-- A session that watches a list it has not seen follows it in at most three steps. -/
theorem changed_follows (hphase : f.phase = .session s .selecting) (hwatching : s.watching = true)
    (hseen : s.seen ≠ f.version) : ∃ n ≤ 2, ∃ f₁ f', f.step cfg .changed = some f₁ ∧
      f₁.client = f.client ∧ f₁.version = f.version ∧ Follows cfg n f₁ f' := by
  let f₁ : Feed := { f with phase := s.follow f.version f.client.assets }
  have hchanged : f.step cfg .changed = some f₁ := by simp [step, hphase, hwatching, hseen, f₁]
  obtain ⟨n, hn, f', h⟩ := follow_follows cfg (f := f₁) rfl
  exact ⟨n, hn, f₁, f', hchanged, rfl, rfl, h⟩

end Feed

namespace System
variable [Toml] [Alloy] [Unicode] [RainFloat] [Abi] [Cbor] [Keccak] {P : Program} {S : System}

/-- The socket task alone, when no message arrives: the rest of the system stands still. -/
lemma run_socket {es : List FeedEvent} (hes : ∀ e ∈ es, Feed.IsSocket e = true ∧ ∀ m, e ≠ .message m)
    {feed : Feed} (hrun : Machine.run (Feed.step P.feed) S.feed es = some feed) :
    Machine.run (System.step P) S (es.map .socket) = some { S with feed := feed } := by
  induction es generalizing S with
  | nil =>
    obtain rfl := Option.some.inj hrun
    rfl
  | cons e es ih =>
    obtain ⟨f, hf, hrest⟩ := Machine.run_cons.mp hrun
    obtain ⟨he, hm⟩ := hes e List.mem_cons_self
    have happlied : S.feed.applied e = none := by
      cases e with
      | message m => exact absurd rfl (hm m)
      | _ => rfl
    have hstep : S.step P (.socket e) = some { S with feed := f } := by
      simp [System.step, he, hf, happlied, turn]
    refine Machine.run_cons.mpr ⟨_, hstep, ih (fun e' he' => hes e' (List.mem_cons_of_mem _ he')) ?_⟩
    exact hrest

/-- Pricing has the session subscribed to the symbols the server runs, and to whatever the
server has a quote of. -/
structure Current (S : System) (s : PricingSession) : Prop where
  subscribed : subscribed s.log = S.world.server.tokens.symbols.toFinset
  cached : ∀ k entry, S.world.server.pricing.cache.entries.lookup k = some entry →
    k.2 ∈ OracleServer.subscribed s.log

/-- The session waits, current, or it ended well with nothing to be subscribed to. -/
def Settled (S : System) : Prop :=
  match S.feed.phase with
  | .session s .selecting => S.Current s
  | .ended (some s) (.ok ()) => S.world.server.tokens.symbols = [] ∧ OracleServer.subscribed s.log = ∅
  | _ => False

/-- The list and the quotes of a system with no write of a reload to come but the last. -/
lemma idle_list [LawfulSerde] {set : TokenSet} (hset : Accepts P.deployment.staticConfig set)
    {es : List SystemEvent} (hrun : System.run P set es = some S)
    (hidle : ∀ st ∈ S.world.reloading, st = .clearRejected ∨ ∃ g, st = .reject g) :
    S.feed.client.assets = S.world.server.tokens.symbols ∧
      ∀ k entry, S.world.server.pricing.cache.entries.lookup k = some entry →
        k.2 ∈ S.world.server.tokens.symbols := by
  obtain ⟨fs, hworld⟩ := run_world hrun
  obtain ⟨-, hsettling⟩ := settling_run hset hworld
  rw [(run_joined hrun).client]
  generalize hpending : S.world.reloading = pending at hsettling hidle
  cases hsettling with
  | settled hrest hpublished hcached =>
    exact ⟨hpublished, fun k entry hentry => hcached k.2 ⟨k.1, entry, hentry⟩⟩
  | sameRows g _ _ => simpa using hidle _ List.mem_cons_self
  | replacing _ _ _ _ => simpa using hidle _ List.mem_cons_self
  | publishing _ _ _ => simpa using hidle _ List.mem_cons_self
  | forgetting _ _ _ => simpa using hidle _ List.mem_cons_self

lemma current_of_last [LawfulSerde] {set : TokenSet} (hset : Accepts P.deployment.staticConfig set)
    {es : List SystemEvent} (hrun : System.run P set es = some S)
    (hidle : ∀ st ∈ S.world.reloading, st = .clearRejected ∨ ∃ g, st = .reject g)
    {s : PricingSession} {place : SessionPlace} (hphase : S.feed.phase = .session s place)
    (hplace : place = .selecting ∨ ∃ m, place = .replying m) (hlast : s.last = S.feed.client.assets) :
    S.Current s := by
  obtain ⟨gs, hfeed⟩ := run_feed hrun
  obtain ⟨hlist, hcached⟩ := idle_list hset hrun hidle
  have htracks := Feed.run_tracks hfeed
  rw [hphase] at htracks
  have hsubscribed : subscribed s.log = S.world.server.tokens.symbols.toFinset := by
    rw [htracks.2.follows hplace, hlast, hlist]
  refine ⟨hsubscribed, fun k entry hentry => ?_⟩
  rw [hsubscribed, List.mem_toFinset]
  exact hcached k entry hentry

lemma settled_of_caughtUp [LawfulSerde] {set : TokenSet} (hset : Accepts P.deployment.staticConfig set)
    {es : List SystemEvent} (hrun : System.run P set es = some S)
    (hidle : ∀ st ∈ S.world.reloading, st = .clearRejected ∨ ∃ g, st = .reject g)
    (hcaught : S.feed.phase.CaughtUp S.feed.version S.feed.client.assets) : S.Settled := by
  unfold Settled
  cases hphase : S.feed.phase with
  | session s place =>
    rw [hphase] at hcaught
    cases place with
    | selecting => exact current_of_last hset hrun hidle hphase (.inl rfl) hcaught.2
    | _ => exact hcaught
  | ended s result =>
    rw [hphase] at hcaught
    match s, result with
    | some s, .ok () =>
      obtain ⟨gs, hfeed⟩ := run_feed hrun
      obtain ⟨hlist, -⟩ := idle_list hset hrun hidle
      have htracks := Feed.run_tracks hfeed
      rw [hphase] at htracks
      refine ⟨hlist.symm.trans hcaught.2, ?_⟩
      rw [htracks.2, hcaught.1, hcaught.2]
      rfl
    | none, _ => exact hcaught
    | some _, .error _ => exact hcaught
  | _ =>
    rw [hphase] at hcaught
    exact hcaught

/-- In every run, between two reloads, of a session that is not between the sends of a change
(it selects, or answers a message): if it has seen the latest list it is current, and if it
selects and watches it becomes so in at most three steps of its own. -/
theorem upstream_is_the_running_set [LawfulSerde] {set : TokenSet}
    (hset : Accepts P.deployment.staticConfig set) {es : List SystemEvent}
    (hrun : System.run P set es = some S)
    (hidle : ∀ st ∈ S.world.reloading, st = .clearRejected ∨ ∃ g, st = .reject g)
    {s : PricingSession} {place : SessionPlace} (hphase : S.feed.phase = .session s place)
    (hplace : place = .selecting ∨ ∃ m, place = .replying m) :
    (s.seen = S.feed.version → S.Current s) ∧
      (place = .selecting → s.watching = true → s.seen ≠ S.feed.version → ∃ n ≤ 2, ∃ S',
        Machine.run (System.step P) S
          (.socket .changed :: List.replicate n (.socket (.send (.ok ())))) = some S' ∧
        S'.Settled ∧ S'.world = S.world) := by
  obtain ⟨gs, hfeed⟩ := run_feed hrun
  have hsees : s.Sees S.feed.version S.feed.client.assets := by
    have h := Feed.run_sees hfeed
    unfold Feed.Sees at h
    rwa [hphase] at h
  refine ⟨fun hseen => current_of_last hset hrun hidle hphase hplace (hsees.2 hseen), ?_⟩
  rintro rfl hwatching hbehind
  obtain ⟨n, hn, f₁, f', hchanged, hclient₁, hversion₁, hsent, hclient, hversion, hcaught⟩ :=
    Feed.changed_follows P.feed hphase hwatching hbehind
  have hsystem := run_socket (fun e he => ?_) (Machine.run_cons.mpr ⟨f₁, hchanged, hsent⟩)
  · rw [List.map_cons, List.map_replicate] at hsystem
    refine ⟨n, hn, _, hsystem, ?_, rfl⟩
    -- the run goes on, so what holds of every run holds at its end
    have hrun' : System.run P set (es ++ _) = some { S with feed := f' } :=
      Machine.run_append.mpr ⟨S, hrun, hsystem⟩
    refine settled_of_caughtUp hset hrun' hidle ?_
    rwa [hversion, hclient]
  · rcases List.mem_cons.mp he with rfl | he
    · exact ⟨rfl, fun m hm => nomatch hm⟩
    · obtain rfl := List.eq_of_mem_replicate he
      exact ⟨rfl, fun m hm => nomatch hm⟩

end System

namespace Sample.Wired

/-- A reload publishes its list while the session waits. -/
def reloaded : List SystemEvent :=
  connected ++ .poll (some (2, bytesOf 2)) :: List.replicate 4 .reload

def waiting : FeedPhase → Option PricingSession
  | .session s .selecting => some s
  | _ => none

lemma waiting_eq_some {phase : FeedPhase} {s : PricingSession} (h : waiting phase = some s) :
    phase = .session s .selecting := by
  cases phase with
  | session t place =>
    cases place with
    | selecting => exact congrArg (FeedPhase.session · .selecting) (Option.some.inj h)
    | _ => cases h
  | _ => cases h

theorem reloaded_is_followed : ∃ S n S', System.run program bootSet reloaded = some S ∧ n ≤ 2 ∧
    Machine.run (System.step program) S
      (.socket .changed :: List.replicate n (.socket (.send (.ok ())))) = some S' ∧ S'.Settled := by
  have hready : (System.run program bootSet reloaded).any (fun S => S.world.reloading.isEmpty &&
      (waiting S.feed.phase).any fun s => s.watching && s.seen != S.feed.version) = true := by
    decide +kernel
  obtain ⟨S, hS, hready⟩ := (Option.any_eq_true _ _).mp hready
  obtain ⟨hidle, hready⟩ := Bool.and_eq_true_iff.mp hready
  obtain ⟨s, hwaiting, hready⟩ := (Option.any_eq_true _ _).mp hready
  obtain ⟨hwatching, hseen⟩ := Bool.and_eq_true_iff.mp hready
  have hnone : ∀ st ∈ S.world.reloading, st = .clearRejected ∨ ∃ g, st = .reject g := by
    rw [List.isEmpty_iff.mp hidle]
    simp
  obtain ⟨n, hn, S', hrun, hsettled, -⟩ :=
    (System.upstream_is_the_running_set (P := program) bootSet_accepted hS hnone
      (waiting_eq_some hwaiting) (.inl rfl)).2 rfl hwatching (bne_iff_ne.mp hseen)
  exact ⟨S, n, S', hS, hn, hrun, hsettled⟩

end Sample.Wired

end OracleServer
