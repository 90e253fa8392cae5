import OracleServer.Delivery
import OracleServer.RequestOrder

/-! The invariant of the whole server over every run: the shared state is sound, the
sets still to come are among the assumed ones, and every request in flight keeps its
contract and reads in order. What a request delivers is read off it. -/
namespace OracleServer

open Interaction Interaction.Contract

/-- Every clock reading of the event satisfies `P`. -/
def Event.Clocked (P : Int64 → Prop) : Event → Prop
  | .move _ _ i => P i.nowUnixMs
  | _ => True

theorem Event.clocked_true (e : Event) : e.Clocked fun _ => True := by
  cases e <;> trivial

/-- Item `i` of the request was answered with the signed response `r`. -/
def InFlight.Delivered (q : InFlight) (i : ℕ) (r : OracleResponse) : Prop :=
  ∃ response, q.result = some (.ok response) ∧ response.okAt i = some r

section Polls
variable [Toml] [Alloy] [Unicode]

/-- The sets a poll may install: one that `candidate` accepts, or the running one under
another generation. -/
theorem poll_replace {static : Table} {boot : Config} {current set : TokenSet}
    {rejected : Option Int64} {read : Option (Int64 × ByteArray)}
    (h : ReloadStep.replace set ∈ Reload.poll static boot current rejected read) :
    Accepts static set ∨ ∃ g, set = { current with generation := g } := by
  generalize hpoll : Reload.poll static boot current rejected read = steps at h
  cases hpoll ▸ polled static boot current rejected read with
  | idle => cases h
  | unchanged => simp at h
  | refused g => simp at h
  | sameRows g =>
    obtain rfl : set = { current with generation := some g } := by simpa using h
    exact .inr ⟨some g, rfl⟩
  | @applied bytes p running c r g hcandidate hrunning =>
    obtain rfl : set = ⟨r, c.symbols, some p, some g⟩ := by simpa using h
    exact .inl ⟨bytes, p, c, r, hcandidate, rfl, rfl, rfl⟩

end Polls

/-- The assumption on sets holds of every set a reload may install. -/
structure Assume.Closed [Toml] [Alloy] [Unicode] (H : Assume) (static : Table) : Prop where
  accepted : ∀ set, Accepts static set → H.sets set
  generation : ∀ set g, H.sets set → H.sets { set with generation := g }

section Invariant
variable [RainFloat] {D : Deployment} {a : List Symbol} {H : Assume}

theorem Sound.observe {s : Server} (h : Sound D a H s) (e : ClientEvent) :
    Sound D a H (s.observe e) ∧ s.journal <+: (s.observe e).journal := by
  have hpre : s.journal <+: s.journal ++ [e] := List.prefix_append _ _
  refine ⟨⟨?_, h.sets, fun k st hk => (h.reuse k st hk).mono hpre⟩, hpre⟩
  change s.pricing.step e = ClientState.after a (s.journal ++ [e])
  rw [ClientState.after_snoc, ← h.journal]

theorem Sound.reload {s : Server} (h : Sound D a H s) {st : ReloadStep}
    (hset : ∀ set, st = .replace set → H.sets set) :
    Sound D a H (s.reload st) ∧ s.journal <+: (s.reload st).journal := by
  cases st with
  | replace set => exact ⟨⟨h.journal, hset set rfl, h.reuse⟩, List.prefix_rfl⟩
  | sendReplace symbols => exact h.observe (.publish symbols)
  | forget symbols => exact h.observe (.forget symbols)
  | reject g => exact ⟨⟨h.journal, h.sets, h.reuse⟩, List.prefix_rfl⟩
  | clearRejected => exact ⟨⟨h.journal, h.sets, h.reuse⟩, List.prefix_rfl⟩

/-- Every answer of the trace was given by a sound state of the past. -/
def Genuine (D : Deployment) (a : List Symbol) (H : Assume) (tr : ServerTrace) (s : Server) :
    Prop :=
  ∀ e ∈ tr, Sound D a H e.state ∧ e.state.journal <+: s.journal ∧
    ∃ i s', Server.perform D i e.op e.state = some (e.answer, s')

theorem Genuine.later {tr : ServerTrace} {s s' : Server} (h : Genuine D a H tr s)
    (hrel : s.journal <+: s'.journal) : Genuine D a H tr s' := by
  intro e he
  obtain ⟨hs, hpre, hperform⟩ := h e he
  exact ⟨hs, hpre.trans hrel, hperform⟩

theorem Genuine.step {t t' : RequestTask} {s s' : Server} {i : Input} {m : Move}
    (h : Genuine D a H t.trace s) (hs : Sound D a H s) (hrel : s.journal <+: s'.journal)
    (hstep : t.step (Server.perform D) i m s = some (t', s')) : Genuine D a H t'.trace s' := by
  rcases t.step_trace hstep with ⟨htrace, rfl⟩ | ⟨o, answer, hp, htrace⟩
  · rw [htrace]
    exact h
  · rw [htrace]
    intro e he
    rcases List.mem_append.mp he with he | he
    · exact h.later hrel e he
    · obtain rfl := List.mem_singleton.mp he
      exact ⟨hs, hrel, i, s', hp⟩

variable [Alloy] [Abi]

structure InFlight.Safe (D : Deployment) (a : List Symbol) (H : Assume) (q : InFlight)
    (s : Server) : Prop where
  fine : (rules D a H).Fine (Delivers D a H q.endpoint q.body) q.task s
  ordered : q.task.Tracks Stage.next (fun _ _ => True) .start
  genuine : Genuine D a H q.task.trace s

structure World.Safe (D : Deployment) (a : List Symbol) (H : Assume) (w : World) : Prop where
  server : Sound D a H w.server
  pending : ∀ set, ReloadStep.replace set ∈ w.reloading → H.sets set
  requests : ∀ q ∈ w.requests, q.Safe D a H w.server

theorem safe_boot {set : TokenSet} (h : H.sets set) :
    (World.boot set).Safe D set.symbols H where
  server := ⟨rfl, h, fun k st hk => by simp [World.boot] at hk⟩
  pending set' hset := nomatch hset
  requests q hq := nomatch hq

/-- A request stays safe while the server moves on without it. -/
theorem InFlight.Safe.later {q : InFlight} {s s' : Server} (h : q.Safe D a H s)
    (hs : Sound D a H s') (hrel : s.journal <+: s'.journal) : q.Safe D a H s' :=
  ⟨h.fine.later hrel hs, h.ordered, h.genuine.later hrel⟩

variable [Toml] [Unicode] {w w' : World}

theorem safe_step (hH : H.Closed D.staticConfig) {e : Event} (he : e.Clocked H.clock)
    (h : w.Safe D a H) (hstep : World.step D w e = some w') : w'.Safe D a H := by
  cases World.took_of_step hstep with
  | frame f =>
    obtain ⟨hs, hrel⟩ := h.server.observe (.frame f)
    exact ⟨hs, h.pending, fun q hq => (h.requests q hq).later hs hrel⟩
  | poll read hidle =>
    refine ⟨h.server, fun set hset => ?_, h.requests⟩
    rcases poll_replace hset with haccepts | ⟨g, rfl⟩
    · exact hH.accepted set haccepts
    · exact hH.generation _ g h.server.sets
  | @reload st rest hpending =>
    have hset : ∀ set, st = .replace set → H.sets set :=
      fun set hst => h.pending set (by simp [hpending, hst])
    obtain ⟨hs, hrel⟩ := h.server.reload hset
    refine ⟨hs, fun set hmem => h.pending set ?_, fun q hq => (h.requests q hq).later hs hrel⟩
    rw [hpending]
    exact List.mem_cons_of_mem _ hmem
  | arrive endpoint query body =>
    refine ⟨h.server, h.pending, fun q hq => ?_⟩
    rcases List.mem_append.mp hq with hq | hq
    · exact h.requests q hq
    · obtain rfl := List.mem_singleton.mp hq
      exact ⟨handler_safe h.server, ⟨.start, rfl, handler_obeys endpoint query body⟩,
        fun e he => nomatch he⟩
  | @move r m i q t s hq ht =>
    have hmem : q ∈ w.requests := List.mem_of_getElem? hq
    have hsafe := h.requests q hmem
    obtain ⟨hs, hrel, hfine⟩ := hsafe.fine.step he h.server ht
    refine ⟨hs, h.pending, fun q' hq' => ?_⟩
    rcases List.mem_or_eq_of_mem_set hq' with hq' | rfl
    · exact (h.requests q' hq').later hs hrel
    · exact ⟨hfine, hsafe.ordered.step ht, hsafe.genuine.step h.server hrel ht⟩

theorem safe_run (hH : H.Closed D.staticConfig) {set : TokenSet} (hset : H.sets set)
    {es : List Event} (hes : ∀ e ∈ es, e.Clocked H.clock)
    (hrun : World.run D (.boot set) es = some w) : w.Safe D set.symbols H :=
  Machine.run_invariant (fun _ _ _ he h hs => safe_step hH he h hs) hes (safe_boot hset) hrun

/-- Everything that stands behind an item that some request of some run delivered. -/
theorem delivered_of_run (hH : H.Closed D.staticConfig) {set : TokenSet} (hset : H.sets set)
    {es : List Event} (hes : ∀ e ∈ es, e.Clocked H.clock)
    (hrun : World.run D (.boot set) es = some w) {q : InFlight} (hq : q ∈ w.requests) {i : ℕ}
    {r : OracleResponse} (hr : q.Delivered i r) :
    Ordered q.task.trace ∧ Genuine D set.symbols H q.task.trace w.server ∧ ∃ schema decoded, q.endpoint = .pair schema ∧
      schema.signsExpiry = true ∧ decodeRequestBody q.body = .ok decoded ∧
      DeliveredAt D set.symbols H schema decoded.items i r q.task.trace w.server := by
  have hsafe := safe_run hH hset hes hrun
  obtain ⟨hfine, ⟨stage, hword, -⟩, hgenuine⟩ := hsafe.requests q hq
  obtain ⟨response, hresult, hok⟩ := hr
  unfold InFlight.result at hresult
  split at hresult
  · next result hconfig =>
    obtain rfl := Option.some.inj hresult
    exact ⟨⟨stage, hword⟩, hgenuine, hfine.done hsafe.server hconfig response i r rfl hok⟩
  · cases hresult

end Invariant

/-! A run of the sample deployment: a price, a halt, a newer price, and one order asking
`v5` for a signature. -/
namespace Sample

/-- A word of big-endian bytes. -/
def word (n : ℕ) : B256 := Vector.ofFn fun i : Fin 32 => (n / 256 ^ (31 - i.val) % 256).toUInt8

/-- A packed Rain Float: the exponent in the top four bytes, the coefficient below. -/
def pack (coefficient : ℕ) (exponent : ℤ) : B256 :=
  word ((exponent % 2 ^ 32).toNat * 2 ^ 224 + coefficient)

def decimal (s : List Char) : Option ℕ :=
  if s ≠ [] ∧ s.all Char.isDigit then some (s.foldl (fun n d => 10 * n + (d.toNat - 48)) 0)
  else none

scoped instance float : RainFloat where
  parse s := match decimal s.toList with
    | some n => .ok (pack n 0)
    | none => .error "ParseDecimalFloat"
  inv b :=
    if b = pack 1 0 then .ok (pack 1 0)
    else if b = pack 2 0 then .ok (pack 5 (-1))
    else .error "DivisionByZero"
  isZero b := .ok ((b.toList.drop 4).all (· = 0))
  fromFixedDecimal n decimals := .ok (pack n (-decimals.toNat))

def coin : Address := Vector.replicate 20 0x11

def usdc : Address :=
  #v[0x83, 0x35, 0x89, 0xfc, 0xd6, 0xed, 0xb6, 0xe0, 0x8f, 0x4c, 0x7c, 0x32, 0xd4, 0xf7, 0x1b, 0x54,
    0xbd, 0xa0, 0x29, 0x13]

def order : OracleRequestTuple where
  order :=
    { owner := Vector.replicate 20 7
      evaluable := ⟨Vector.replicate 20 8, Vector.replicate 20 9, []⟩
      validInputs := [⟨usdc, Vector.replicate 32 0⟩]
      validOutputs := [⟨coin, Vector.replicate 32 0⟩]
      nonce := Vector.replicate 32 1 }
  inputIOIndex := 0
  outputIOIndex := 0
  counterparty := Vector.replicate 20 10

/-- A word of the body: a number below `2 ^ 16`, or an address, on the left of zeros. -/
def small (n : ℕ) : List UInt8 := List.replicate 30 0 ++ [(n / 256).toUInt8, n.toUInt8]

def padded (a : Address) : List UInt8 := List.replicate 12 0 ++ a.toList

/-- The ABI encoding of one order with one input, one output and no bytecode. -/
def encode (r : OracleRequestTuple) : ByteArray :=
  let io (l : List IOV2) := small l.length :: l.flatMap fun v => [padded v.token, v.vaultId.toList]
  let words := [small 0x20, small 0x80, small r.inputIOIndex.toNat, small r.outputIOIndex.toNat,
    padded r.counterparty, padded r.order.owner, small 0xa0, small 0x120, small 0x180,
    r.order.nonce.toList, padded r.order.evaluable.interpreter, padded r.order.evaluable.store,
    small 0x60, small r.order.evaluable.bytecode.length] ++ io r.order.validInputs ++
    io r.order.validOutputs
  ⟨words.flatten.toArray⟩

scoped instance abi : Abi where
  decodeBatch _ := .error "buffer overrun"
  decodeSingle body := if body.data.toList = (encode order).data.toList then .ok order else .error "buffer overrun"

def bootConfig : Config :=
  ⟨3000, 8453, usdcBase, [⟨oldAddress, "wtCOIN"⟩], none, ⟨"ws://st0x-pricing:8080/ws", "oracle"⟩, ⟨10⟩⟩

def deployment : Deployment := ⟨staticConfig, bootConfig⟩

def bootSet : TokenSet :=
  match TokenFile.candidate staticConfig (bytesOf 1) with
  | .ok (p, c, r) => ⟨r, c.symbols, some p, some 1⟩
  | .error _ => ⟨⟨∅, usdc⟩, [], none, none⟩

def price (expiry : Int64) : PriceFrame where
  asset := "wtCOIN"
  chainId := 8453
  base := coin
  quote := usdc
  rateBaseToQuote := pack 2 0
  rateQuoteToBase := pack 2 0
  expiryUnixMs := expiry
  executionDeadlineUnixMs := some 1700000030000
  sourceTsUnixMs := 1700000000000
  navRatio := word (10 ^ 18)
  underlyingRateBaseToQuote := pack 1 0
  underlyingRateQuoteToBase := pack 1 0
  session := some ⟨.rth, 1699990000000, 1700010000000⟩

def input : Input := ⟨1700000001000, .ok (List.replicate 65 1, Vector.replicate 20 5)⟩

def events : List Event :=
  [.frame (.price (price 1700000060000)), .frame (.halt ⟨"wtCOIN", 8453, true⟩),
    .frame (.price (price 1700000090000)), .arrive (.pair .v5) none (encode order)] ++
    List.replicate 21 (.move 0 .main input)

theorem bootSet_accepted : Accepts staticConfig bootSet := by
  obtain ⟨p, c, r, hc⟩ := candidate_accepts 1 (by decide +kernel)
  have hset : bootSet = ⟨r, c.symbols, some p, some 1⟩ := by
    unfold bootSet
    simp only [hc]
  rw [hset]
  exact ⟨bytesOf 1, p, c, r, hc, rfl, rfl, rfl⟩

theorem events_clocked : ∀ e ∈ events, e.Clocked fun t => 0 ≤ t.toInt := by
  intro e he
  simp only [events, List.mem_append, List.mem_cons, List.not_mem_nil, or_false,
    List.mem_replicate] at he
  rcases he with (rfl | rfl | rfl | rfl) | ⟨-, rfl⟩
  · trivial
  · trivial
  · trivial
  · trivial
  · change 0 ≤ input.nowUnixMs.toInt
    decide

/-- What the request of the run answers. -/
def answer : Option OracleResponse :=
  (World.run deployment (.boot bootSet) events).bind fun w => w.requests[0]?.bind fun q =>
    q.result.bind fun r => r.toOption.bind (·.okAt 0)

theorem run_delivers : ∃ w q r, World.run deployment (.boot bootSet) events = some w ∧
    q ∈ w.requests ∧ q.Delivered 0 r := by
  have hsome : answer.isSome = true := by decide +kernel
  obtain ⟨r, hr⟩ := Option.isSome_iff_exists.mp hsome
  obtain ⟨w, hw, hr⟩ := Option.bind_eq_some_iff.mp hr
  obtain ⟨q, hq, hr⟩ := Option.bind_eq_some_iff.mp hr
  obtain ⟨result, hresult, hr⟩ := Option.bind_eq_some_iff.mp hr
  cases result with
  | error e => cases hr
  | ok response => exact ⟨w, q, r, hw, List.mem_of_getElem? hq, response, hresult, hr⟩

end Sample

end OracleServer
