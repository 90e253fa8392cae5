import OracleServer.Bucket
import OracleServer.Lib.LastWrite

/-! The access token over any number of reads: what the reader sends is the token the
metadata server gave last, while that lasts and was not refused; and it asks for another
only when that one no longer does. -/
namespace OracleServer

namespace Exchange

/-- What an exchange does to the cached token: a mint replaces it, a refusal drops it. -/
def writes : Exchange → Option CachedToken
  | .metadata _ (.ok (.ok (token, expiresIn))) mintedAt =>
    some (some (token, mintedAt + seconds (expiresIn.toNat - 60)))
  | .object _ _ (.ok r) => if r.status = 401 then some none else none
  | _ => none

lemma writes_eq_some {x : Exchange} {token : String} {validUntil : Nanos}
    (h : x.writes = some (some (token, validUntil))) : ∃ checkedAt expiresIn mintedAt,
      x = .metadata checkedAt (.ok (.ok (token, expiresIn))) mintedAt ∧
        validUntil = mintedAt + seconds (expiresIn.toNat - 60) := by
  match x with
  | .metadata checkedAt (.ok (.ok (t, expiresIn))) mintedAt =>
    obtain ⟨rfl, rfl⟩ := Prod.mk.inj (Option.some.inj (Option.some.inj h))
    exact ⟨checkedAt, expiresIn, mintedAt, rfl, rfl⟩
  | .metadata _ (.ok (.error _)) _ | .metadata _ (.error _) _ => cases h
  | .object _ _ (.ok r) =>
    simp only [writes] at h
    split at h <;> simp at h
  | .object _ _ (.error _) => cases h

/-- The metadata server answered with a token. -/
def IsMint (x : Exchange) : Prop :=
  ∃ checkedAt fresh mintedAt, x = .metadata checkedAt (.ok (.ok fresh)) mintedAt

/-- The storage refused the token it was sent. -/
def IsRefusal (x : Exchange) : Prop :=
  ∃ checkedAt request r, x = .object checkedAt request (.ok r) ∧ r.status = 401

lemma writes_eq_none {x : Exchange} : x.writes = none ↔ ¬ x.IsMint ∧ ¬ x.IsRefusal := by
  match x with
  | .metadata _ (.ok (.ok fresh)) _ => simp [writes, IsMint]
  | .metadata _ (.ok (.error _)) _ | .metadata _ (.error _) _ => simp [writes, IsMint, IsRefusal]
  | .object _ _ (.ok r) =>
    by_cases hr : r.status = 401
    · simp [writes, IsMint, IsRefusal, hr]
    · simp [writes, IsMint, IsRefusal, hr]
  | .object _ _ (.error _) => simp [writes, IsMint, IsRefusal]

end Exchange

namespace Bucket
variable {b : Bucket} {cached : CachedToken} {net : Network}

/-- What one read sent, against what was cached before it. -/
inductive Sent (cached : CachedToken) (net : Network) : List Exchange → Prop
  | nothing : Sent cached net []
  | unminted (hstale : cached.filter (fun c => net.checkedAt < c.2) = none)
    (hquiet : (Exchange.metadata net.checkedAt net.metadata net.mintedAt).writes = none) :
    Sent cached net [.metadata net.checkedAt net.metadata net.mintedAt]
  | reused {c : String × Nanos} {request : HttpRequest} (hcached : cached = some c)
    (hlive : net.checkedAt < c.2) (hbearer : request.bearer = c.1)
    (answer : Except String HttpResponse) :
    Sent cached net [.object net.checkedAt request answer]
  | minted {token : String} {expiresIn : UInt64} {request : HttpRequest}
    (hstale : cached.filter (fun c => net.checkedAt < c.2) = none)
    (hminted : net.metadata = .ok (.ok (token, expiresIn))) (hbearer : request.bearer = token)
    (answer : Except String HttpResponse) :
    Sent cached net [.metadata net.checkedAt net.metadata net.mintedAt,
      .object net.checkedAt request answer]

lemma accessToken_cases {url : String} (hb : b.token = .metadata url) (cached : CachedToken)
    (net : Network) :
    (∃ c, cached = some c ∧ net.checkedAt < c.2 ∧ b.accessToken cached net = (.ok c.1, cached, [])) ∨
    cached.filter (fun c => net.checkedAt < c.2) = none ∧
      let asked := Exchange.metadata net.checkedAt net.metadata net.mintedAt
      ((∃ e, asked.writes = none ∧ b.accessToken cached net = (.error e, cached, [asked])) ∨
        ∃ token expiresIn, net.metadata = .ok (.ok (token, expiresIn)) ∧ b.accessToken cached net =
          (.ok token, some (token, net.mintedAt + seconds (expiresIn.toNat - 60)), [asked])) := by
  unfold accessToken
  rw [hb]
  dsimp only
  cases hfilter : cached.filter fun c => net.checkedAt < c.2 with
  | some c =>
    obtain ⟨hcached, hlive⟩ := Option.filter_eq_some_iff.mp hfilter
    exact .inl ⟨c, hcached, of_decide_eq_true hlive, rfl⟩
  | none =>
    refine .inr ⟨rfl, ?_⟩
    match hreply : net.metadata with
    | .error e => exact .inl ⟨_, rfl, rfl⟩
    | .ok (.error e) => exact .inl ⟨_, rfl, rfl⟩
    | .ok (.ok (token, expiresIn)) => exact .inr ⟨token, expiresIn, rfl, rfl⟩

variable [Http] {gsUrl : String} {unlessGeneration : Option Int64}

lemma answered_cached {url : String} (hb : b.token = .metadata url)
    (answer : Except String HttpResponse) (checkedAt : Nanos) (request : HttpRequest) :
    (b.answered gsUrl unlessGeneration cached answer).2 =
      ((Exchange.object checkedAt request answer).writes).getD cached := by
  cases answer with
  | error e => rfl
  | ok r =>
    simp only [answered, Exchange.writes, forgetAccessToken, hb]
    by_cases hrefused : r.status = 401
    · -- neither a 304 nor a success is a 401
      have hfailed : r.isSuccess = false := by
        unfold HttpResponse.isSuccess
        rw [hrefused]
        decide
      simp [hrefused, hfailed]
    · split
      · simp
      · split <;> simp

/-- One read sends as it may, and leaves the cached token as its exchanges say. -/
theorem read_sent {url : String} (hb : b.token = .metadata url) (cached : CachedToken)
    (net : Network) (gsUrl : String) (unlessGeneration : Option Int64) :
    Sent cached net (b.read cached net gsUrl unlessGeneration).2.2 ∧
      (b.read cached net gsUrl unlessGeneration).2.1 =
        lastWrite Exchange.writes cached (b.read cached net gsUrl unlessGeneration).2.2 := by
  unfold read
  split
  · exact ⟨.nothing, rfl⟩
  next bucket object hsplit =>
  rcases accessToken_cases hb cached net with
    ⟨c, hcached, hlive, htoken⟩ | ⟨hstale, ⟨e, hquiet, htoken⟩ | ⟨token, expiresIn, hminted, htoken⟩⟩
  · rw [htoken]
    refine ⟨.reused hcached hlive rfl _, ?_⟩
    exact answered_cached hb _ _ _
  · rw [htoken]
    refine ⟨.unminted hstale hquiet, ?_⟩
    simp [lastWrite, hquiet]
  · rw [htoken]
    refine ⟨.minted hstale hminted rfl _, ?_⟩
    simp only [answered_cached hb _ net.checkedAt ⟨b.objectUrl bucket object unlessGeneration, token⟩]
    simp [lastWrite, Exchange.writes, hminted]

/-- Reads one after the other: the cached token they leave, and all they sent. -/
def readAll (b : Bucket) (calls : List (Network × String × Option Int64)) :
    CachedToken × List Exchange :=
  calls.foldl (fun r call =>
    let (_, cached, sent) := b.read r.1 call.1 call.2.1 call.2.2
    (cached, r.2 ++ sent)) (none, [])

/-- `x` was sent as it may be, after what the log holds before it. -/
def SentAfter (before : List Exchange) : Exchange → Prop
  | .metadata checkedAt _ _ =>
    (lastWrite Exchange.writes none before).filter (fun c => checkedAt < c.2) = none
  | .object checkedAt request _ => ∃ c, lastWrite Exchange.writes none before = some c ∧
      request.bearer = c.1 ∧ (checkedAt < c.2 ∨ ∃ earlier expiresIn mintedAt,
        before = earlier ++ [.metadata checkedAt (.ok (.ok (c.1, expiresIn))) mintedAt])

def ProperSends (log : List Exchange) : Prop :=
  ∀ before x after, log = before ++ x :: after → SentAfter before x

omit [Http] in
lemma ProperSends.concat {log : List Exchange} (h : ProperSends log) {x : Exchange}
    (hx : SentAfter log x) : ProperSends (log ++ [x]) := by
  intro before y after heq
  rcases List.eq_nil_or_concat after with rfl | ⟨rest, last, rfl⟩
  · obtain ⟨rfl, hlast⟩ := List.append_inj' heq rfl
    obtain rfl := List.head_eq_of_cons_eq hlast
    exact hx
  · rw [List.concat_eq_append, ← List.cons_append, ← List.append_assoc] at heq
    obtain ⟨hlog, -⟩ := List.append_inj' heq rfl
    exact h before y rest hlog

omit [Http] in
lemma ProperSends.sent {log : List Exchange} (h : ProperSends log)
    (hcached : cached = lastWrite Exchange.writes none log) {sent : List Exchange}
    (hsent : Sent cached net sent) : ProperSends (log ++ sent) := by
  cases hsent with
  | nothing => rwa [List.append_nil]
  | unminted hstale hquiet => exact h.concat (show _ = none from hcached ▸ hstale)
  | reused hsome hlive hbearer answer =>
    exact h.concat ⟨_, hcached ▸ hsome, hbearer, .inl hlive⟩
  | @minted token expiresIn request hstale hminted hbearer answer =>
    have hmint : ProperSends (log ++ [.metadata net.checkedAt net.metadata net.mintedAt]) :=
      h.concat (show _ = none from hcached ▸ hstale)
    have hwritten : lastWrite Exchange.writes none
        (log ++ [.metadata net.checkedAt net.metadata net.mintedAt]) =
          some (token, net.mintedAt + seconds (expiresIn.toNat - 60)) := by
      simp [lastWrite, Exchange.writes, hminted]
    have hlast := hmint.concat (x := .object net.checkedAt request answer)
      ⟨_, hwritten, hbearer, .inr ⟨log, expiresIn, net.mintedAt, by rw [hminted]⟩⟩
    simpa using hlast

lemma readAll_proper {url : String} (hb : b.token = .metadata url)
    (calls : List (Network × String × Option Int64)) :
    (b.readAll calls).1 = lastWrite Exchange.writes none (b.readAll calls).2 ∧
      ProperSends (b.readAll calls).2 := by
  induction calls using List.reverseRecOn with
  | nil =>
    refine ⟨rfl, fun before x after h => ?_⟩
    simp [readAll] at h
  | append_singleton calls call ih =>
    obtain ⟨hcached, hproper⟩ := ih
    obtain ⟨hsent, hleft⟩ := read_sent hb (b.readAll calls).1 call.1 call.2.1 call.2.2
    have hlast : b.readAll (calls ++ [call]) =
        ((b.read (b.readAll calls).1 call.1 call.2.1 call.2.2).2.1, (b.readAll calls).2 ++
          (b.read (b.readAll calls).1 call.1 call.2.1 call.2.2).2.2) := by
      simp [readAll, List.foldl_append]
    rw [hlast]
    refine ⟨?_, hproper.sent hcached hsent⟩
    rw [lastWrite.append, ← hcached]
    exact hleft

/-- A read sends the token that the metadata server gave last, and which the storage has
not refused since: in the turn that asked for it, or a minute or more before it expires. The
metadata server is asked only when the last token it gave was refused or is that old. -/
structure FreshTokens (log : List Exchange) : Prop where
  sent : ∀ before checkedAt request answer after, log = before ++ .object checkedAt request answer :: after →
    ∃ earlier c expiresIn mintedAt since,
      before = earlier ++ .metadata c (.ok (.ok (request.bearer, expiresIn))) mintedAt :: since ∧
      (∀ x ∈ since, ¬ x.IsMint ∧ ¬ x.IsRefusal) ∧
      (checkedAt < mintedAt + seconds (expiresIn.toNat - 60) ∨ since = [] ∧ c = checkedAt)
  asked : ∀ before checkedAt reply repliedAt after,
    log = before ++ .metadata checkedAt reply repliedAt :: after →
    ∀ earlier c token expiresIn mintedAt since,
      before = earlier ++ .metadata c (.ok (.ok (token, expiresIn))) mintedAt :: since →
      (∀ x ∈ since, ¬ x.IsMint ∧ ¬ x.IsRefusal) →
      mintedAt + seconds (expiresIn.toNat - 60) ≤ checkedAt

theorem reads_send_fresh_tokens {url : String} (hb : b.token = .metadata url)
    (calls : List (Network × String × Option Int64)) : FreshTokens (b.readAll calls).2 := by
  obtain ⟨-, hproper⟩ := readAll_proper hb calls
  refine ⟨fun before checkedAt request answer after hlog => ?_,
    fun before checkedAt reply repliedAt after hlog earlier c token expiresIn mintedAt since hbefore
      hquiet => ?_⟩
  · obtain ⟨held, hheld, hbearer, hlive⟩ := hproper _ _ _ hlog
    rcases lastWrite.cases Exchange.writes none before with ⟨-, hnone⟩ |
      ⟨earlier, x, since, hbefore, hx, hsince⟩
    · rw [hheld] at hnone
      cases hnone
    · rw [hheld] at hx
      obtain ⟨c, expiresIn, mintedAt, rfl, hvalid⟩ := Exchange.writes_eq_some hx
      refine ⟨earlier, c, expiresIn, mintedAt, since, hbearer ▸ hbefore,
        fun y hy => Exchange.writes_eq_none.mp (hsince y hy), ?_⟩
      rcases hlive with hlive | ⟨earlier', expiresIn', mintedAt', hfresh⟩
      · exact .inl (hvalid ▸ hlive)
      · -- the mint of this turn is the last exchange, and so the last that wrote
        refine .inr ?_
        rcases List.eq_nil_or_concat since with rfl | ⟨rest, last, rfl⟩
        · obtain ⟨-, hlast⟩ := List.append_inj' (hbefore.symm.trans hfresh) rfl
          cases hlast
          exact ⟨rfl, rfl⟩
        · rw [List.concat_eq_append, ← List.cons_append, ← List.append_assoc] at hbefore
          obtain ⟨-, hlast⟩ := List.append_inj' (hbefore.symm.trans hfresh) rfl
          have hwrites := hsince last (by simp)
          rw [List.head_eq_of_cons_eq hlast] at hwrites
          cases hwrites
  · have hstale := hproper _ _ _ hlog
    have hwritten : lastWrite Exchange.writes none before =
        some (token, mintedAt + seconds (expiresIn.toNat - 60)) := by
      rw [hbefore]
      exact lastWrite.split rfl fun x hx => Exchange.writes_eq_none.mpr (hquiet x hx)
    rw [SentAfter, hwritten] at hstale
    by_contra hlive
    simp [Option.filter, not_le.mp hlive] at hstale

end Bucket

namespace Sample

scoped instance http : Http where
  reason status := if status = 401 then some "Unauthorized" else none
  lossy bytes := (String.fromUTF8? bytes).getD ""

def storage : Bucket := ⟨"https://storage.googleapis.com",
  .metadata "http://metadata.google.internal/computeMetadata/v1/instance/service-accounts/default/token"⟩

def tokensUrl : String := "gs://t0-artifacts-tokens/production/tokens.toml"

/-- A read at second `t`, with the token minted a second later if one is. -/
def readAt (t : ℕ) (token : String) (status : UInt16) : Network × String × Option Int64 :=
  (⟨seconds t, seconds (t + 1), .ok (.ok (token, 3600)), fun _ => .ok ⟨status, none, none, [], none⟩⟩,
    tokensUrl, none)

/-- The token of the first read is refused at the second, and that of the third runs out. -/
def refusedToken : List (Network × String × Option Int64) :=
  [readAt 0 "first" 503, readAt 10 "unused" 401, readAt 20 "second" 503, readAt 30 "unused" 503,
    readAt 4000 "third" 503]

def bearers (log : List Exchange) : List String :=
  log.filterMap fun x => match x with
    | .object _ request _ => some request.bearer
    | .metadata _ _ _ => none

theorem refused_token_is_replaced :
    bearers (storage.readAll refusedToken).2 = ["first", "first", "second", "second", "third"] ∧
      Bucket.FreshTokens (storage.readAll refusedToken).2 :=
  ⟨by decide +kernel, Bucket.reads_send_fresh_tokens rfl refusedToken⟩

end Sample

end OracleServer
