import OracleServer.Lib.Contract
import OracleServer.QuoteLog
import OracleServer.World

/-! What requests rely on and owe. The shared invariant says where everything cached
came from: quotes from the journal of frames, stored responses from a frame of their own
generation. `rules` is the contract that every operation of a request keeps. -/
namespace OracleServer

open Interaction

/-- `q` is an accepted frame of generation `g`. -/
def InGeneration (a : List Symbol) (log : List ClientEvent) (g : QuoteGeneration) (q : Quote) :
    Prop :=
  ∃ l₁ p l₂, log = l₁ ++ .frame (.price p) :: l₂ ∧ Accepted (ClientState.after a l₁).assets p g.key ∧
    q = Quote.ofPrice p ∧ ClientState.held a (l₁ ++ [.frame (.price p)]) g.key = some ⟨q, g⟩

section Generations
variable {a : List Symbol} {log rest : List ClientEvent} {k : Key} {q : Quote}
  {g : QuoteGeneration}

theorem InGeneration.of_held (h : ClientState.held a log k = some ⟨q, g⟩) :
    InGeneration a log g q := by
  have hk : g.key = k := ClientState.held_key h
  subst hk
  obtain ⟨l₁, p, l₂, hlog, hacc, hq, hheld, -⟩ := ClientState.held_origin h
  exact ⟨l₁, p, l₂, hlog, hacc, hq, hheld⟩

theorem InGeneration.mono (h : InGeneration a log g q) (hp : log <+: rest) :
    InGeneration a rest g q := by
  obtain ⟨l₁, p, l₂, rfl, hacc, hq, hheld⟩ := h
  obtain ⟨l₃, rfl⟩ := hp
  exact ⟨l₁, p, l₂ ++ l₃, by simp, hacc, hq, hheld⟩

/-- A token that was found live after an eviction of its key has only frames from after
that eviction. -/
theorem InGeneration.after_evict {l₁ l₂ l₃ : List ClientEvent} {e : ClientEvent}
    (h : InGeneration a (l₁ ++ e :: l₂) g q) (hlive : ClientState.live a (l₁ ++ e :: l₃) g)
    (he : e.Evicts g.key) :
    ∃ m₁ p m₂, l₂ = m₁ ++ .frame (.price p) :: m₂ ∧
      Accepted (ClientState.after a (l₁ ++ e :: m₁)).assets p g.key ∧ q = Quote.ofPrice p := by
  obtain ⟨n₁, p, n₂, hlog, hacc, hq, hheld⟩ := h
  rcases List.append_eq_append_iff.mp hlog with ⟨m, hn₁, hm⟩ | ⟨m, hl₁, hm⟩
  · -- the frame stands at or after the eviction
    cases m with
    | nil =>
      obtain ⟨rfl, -⟩ := List.cons.inj (by simpa using hm)
      exact he.elim
    | cons e' m =>
      obtain ⟨rfl, hl₂⟩ := List.cons.inj (by simpa using hm)
      exact ⟨m, p, n₂, hl₂, hn₁ ▸ hacc, hq⟩
  · -- the frame stands before the eviction, which then killed the token
    cases m with
    | nil =>
      obtain ⟨rfl, -⟩ := List.cons.inj (by simpa using hm)
      exact he.elim
    | cons e' m =>
      obtain ⟨rfl, -⟩ := List.cons.inj (by simpa using hm)
      have hsplit : l₁ ++ e :: l₃ = (n₁ ++ [.frame (.price p)]) ++ (m ++ e :: l₃) := by
        rw [hl₁]
        simp
      rw [hsplit, ClientState.live_iff_no_evict hheld] at hlive
      exact absurd he (hlive e (by simp))

end Generations

/-- What a group of results assumes: of every clock reading, and of every token set the
server runs. -/
structure Assume where
  clock : Int64 → Prop
  sets : TokenSet → Prop

section Statements
variable [RainFloat]

/-- `context` and `expiry` are what the schema's builder computes from the quote `q`. -/
def Builds (chainId : UInt64) (schema : PairSchema) (direction : PriceDirection) (q : Quote)
    (x y : Address) (context : List B256) (expiry : UInt64) : Prop :=
  ∃ publishTime session price, publishTimeFromQuote q = .ok publishTime ∧
    SignedSession.fromQuote q = .ok session ∧ priceBytes schema q direction = .ok price ∧
    expiryFromQuote q = .ok expiry ∧
    buildContext chainId schema q price publishTime session x y (some expiry) = .ok context

/-- A quote builds one context, with one expiry. -/
theorem Builds.unique {chainId : UInt64} {schema : PairSchema} {direction : PriceDirection} {q : Quote} {x y : Address}
    {c c' : List B256} {e e' : UInt64} (h : Builds chainId schema direction q x y c e)
    (h' : Builds chainId schema direction q x y c' e') : c = c' ∧ e = e' := by
  obtain ⟨publish, session, price, hpublish, hsession, hprice, hexpiry, hcontext⟩ := h
  obtain ⟨publish', session', price', hpublish', hsession', hprice', hexpiry', hcontext'⟩ := h'
  obtain rfl := Except.ok.inj (hpublish.symm.trans hpublish')
  obtain rfl := Except.ok.inj (hsession.symm.trans hsession')
  obtain rfl := Except.ok.inj (hprice.symm.trans hprice')
  obtain rfl := Except.ok.inj (hexpiry.symm.trans hexpiry')
  exact ⟨Except.ok.inj (hcontext.symm.trans hcontext'), rfl⟩

/-- The tStock side of a resolved pair of tokens. -/
def tokenOf (direction : PriceDirection) (x y : Address) : Address :=
  match direction with
  | .quoteToBase => y
  | .baseToQuote => x

/-- `q` passed the checks around a signature: it was priced for the token of the pair and
for the settlement token of a set the server ran, and it was live at some reading of the
clock. -/
structure SignedFrom (D : Deployment) (H : Assume) (schema : PairSchema)
    (direction : PriceDirection) (x y : Address) (q : Quote) (context : List B256)
    (expiry : UInt64) : Prop where
  builds : Builds D.chainId schema direction q x y context expiry
  base : q.base = tokenOf direction x y
  settles : ∃ set, H.sets set ∧ q.quote = set.registry.quoteToken
  live : ∃ effective t, effectiveExpiryUnixMs q = .ok effective ∧ H.clock t ∧
    quoteIsLive effective t true = true

variable (D : Deployment) (a : List Symbol) (H : Assume)

/-- A stored response came from a frame of its own generation. -/
def Provenance (log : List ClientEvent) (key : ReuseKey) (stored : Stored) : Prop :=
  ∃ schema pair x y q, key = reuseKey pair x y schema ∧ schema.signsExpiry = true ∧
    stored.generation.key = (D.chainId, pair.symbol) ∧ InGeneration a log stored.generation q ∧
    SignedFrom D H schema pair.direction x y q stored.response.context stored.expiryUnixSecs

variable {D a H} in
theorem Provenance.mono {log log' : List ClientEvent} {key : ReuseKey} {stored : Stored}
    (h : Provenance D a H log key stored) (hp : log <+: log') :
    Provenance D a H log' key stored := by
  obtain ⟨schema, pair, x, y, q, hkey, hsigns, hgen, hin, hfrom⟩ := h
  exact ⟨schema, pair, x, y, q, hkey, hsigns, hgen, hin.mono hp, hfrom⟩

/-- The invariant of the shared state. -/
structure Sound (s : Server) : Prop where
  journal : s.pricing = ClientState.after a s.journal
  sets : H.sets s.tokens
  reuse : ∀ key stored, s.reuse.lookup key = some stored → Provenance D a H s.journal key stored

/-- What a request owes before an operation: it reads the flag of this chain's tokens
only, and stores only a response of known origin. -/
def Owes : Op → Server → Prop
  | .isLive _ g, _ => g.key.1 = D.chainId
  | .reuseInsert key stored, s => Provenance D a H s.journal key stored
  | _, _ => True

theorem perform_sound {i : Input} {o : Op} {s s' : Server} {answer : o.Answer}
    (hs : Sound D a H s) (hpre : Owes D a H o s)
    (h : Server.perform D i o s = some (answer, s')) :
    Sound D a H s' ∧ s.journal <+: s'.journal := by
  rcases Server.perform_cases h with rfl | ⟨m, rfl⟩ | ⟨key, stored, rfl, -, rfl⟩
  · exact ⟨hs, List.prefix_rfl⟩
  · exact ⟨⟨hs.journal, hs.sets, hs.reuse⟩, List.prefix_rfl⟩
  · refine ⟨⟨hs.journal, hs.sets, fun k st hk => ?_⟩, List.prefix_rfl⟩
    rw [Map.lookup_insert_eq] at hk
    split at hk
    · next hkey =>
      obtain rfl := Option.some.inj hk
      exact hkey ▸ hpre
    · exact hs.reuse k st hk

/-- The contract of a request with everything it runs beside. -/
def rules : Contract Server Input Op Op.Answer where
  perform := Server.perform D
  Admissible i := H.clock i.nowUnixMs
  Inv := Sound D a H
  Rel s s' := s.journal <+: s'.journal
  Pre := Owes D a H
  refl := Server.journal_refl
  trans := @Server.journal_trans
  sound _ hs hpre h := perform_sound D a H hs hpre h

end Statements

end OracleServer
