import OracleServer.System

/-! What holds across the three machines: they share one list and one set of quotes, a
thread waits for a call of its own, and what a request was handed as a signature the
signing backend produced. -/
namespace OracleServer

open Interaction

/-- Only a call that returned has a signature. -/
lemma CallPhase.returned_of_result {phase : CallPhase} {signed : List UInt8 × Address}
    (h : phase.result = some (.ok signed)) : phase = .returned (.ok signed) := by
  cases phase with
  | returned result => exact congrArg _ (Option.some.inj h)
  | timedOut message => cases h
  | _ => cases h

namespace SignerState
variable {s s' : SignerState}

/-- Calls keep their contexts and the backend forgets nothing. -/
structure Kept (s s' : SignerState) : Prop where
  calls : ∀ (j : ℕ) c, s.calls[j]? = some c → ∃ c', s'.calls[j]? = some c' ∧ c'.context = c.context
  produced : s.produced ⊆ s'.produced

lemma Kept.setPhase {j : ℕ} {c : Call} (hj : s.calls[j]? = some c) (h : s'.calls = s.calls)
    (hproduced : s'.produced = s.produced) (phase : CallPhase) :
    Kept s (s'.setPhase j c phase) := by
  refine ⟨fun i d hd => ?_, fun x hx => hproduced ▸ hx⟩
  simp only [SignerState.setPhase, h]
  by_cases hij : j = i
  · subst hij
    obtain rfl := Option.some.inj (hj.symm.trans hd)
    exact ⟨_, List.getElem?_set_self (List.getElem?_eq_some_iff.mp hd).1, rfl⟩
  · exact ⟨d, by rw [List.getElem?_set_ne hij, hd], rfl⟩

variable [Keccak] {cfg : SignerConfig}

theorem kept_step {e : SignEvent} (h : s.step cfg e = some s') : Kept s s' := by
  cases e with
  | tick elapsed => exact Option.some.inj h ▸ ⟨fun _ c h => ⟨c, h, rfl⟩, fun _ h => h⟩
  | call context =>
    obtain rfl := Option.some.inj h
    have happend : ∀ (j : ℕ) c, s.calls[j]? = some c → ∀ d, (s.calls ++ [d])[j]? = some c :=
      fun j c hj d => by rw [List.getElem?_append_left (List.getElem?_eq_some_iff.mp hj).1, hj]
    simp only [call]
    split
    · exact ⟨fun j c hj => ⟨c, happend j c hj _, rfl⟩, fun _ h => h⟩
    · exact ⟨fun j c hj => ⟨c, happend j c hj _, rfl⟩, fun _ h => h⟩
  | spawn j =>
    simp only [step, spawn, Option.bind_eq_bind, Option.bind_eq_some_iff] at h
    obtain ⟨c, hc, e, -, h⟩ := h
    split at h
    · obtain rfl := Option.some.inj h
      refine .setPhase hc ?_ ?_ _ <;> rfl
    · cases h
  | attempt k outcome =>
    simp only [step, attempt, Option.bind_eq_bind, Option.bind_eq_some_iff] at h
    obtain ⟨e, -, h⟩ := h
    split at h
    case h_1 => exact Option.some.inj h ▸ ⟨fun _ c h => ⟨c, h, rfl⟩, List.subset_append_left _ _⟩
    case h_5 => cases h
    all_goals exact Option.some.inj h ▸ ⟨fun _ c h => ⟨c, h, rfl⟩, fun _ h => h⟩
  | evict k =>
    simp only [step, evict, Option.bind_eq_bind, Option.bind_eq_some_iff] at h
    obtain ⟨e, -, h⟩ := h
    split at h
    · exact Option.some.inj h ▸ ⟨fun _ c h => ⟨c, h, rfl⟩, fun _ h => h⟩
    · cases h
  | send k =>
    simp only [step, send, Option.bind_eq_bind, Option.bind_eq_some_iff] at h
    obtain ⟨e, -, h⟩ := h
    split at h
    · exact Option.some.inj h ▸ ⟨fun _ c h => ⟨c, h, rfl⟩, fun _ h => h⟩
    · cases h
  | die k =>
    simp only [step, die, Option.bind_eq_bind, Option.bind_eq_some_iff] at h
    obtain ⟨e, -, h⟩ := h
    split at h
    case h_4 => cases h
    all_goals exact Option.some.inj h ▸ ⟨fun _ c h => ⟨c, h, rfl⟩, fun _ h => h⟩
  | poll j =>
    simp only [step, poll, Option.bind_eq_bind, Option.bind_eq_some_iff] at h
    obtain ⟨c, hc, e, -, h⟩ := h
    split at h
    · split at h
      · obtain rfl := Option.some.inj h
        exact .setPhase hc rfl rfl _
      · obtain rfl := Option.some.inj h
        exact .setPhase hc rfl rfl _
      · split at h
        · obtain rfl := Option.some.inj h
          refine .setPhase hc ?_ ?_ _ <;> rfl
        · split at h
          · obtain rfl := Option.some.inj h
            exact .setPhase hc rfl rfl _
          · cases h
    · cases h
  | disconnect j =>
    simp only [step, disconnect, Option.bind_eq_bind, Option.bind_eq_some_iff] at h
    obtain ⟨c, hc, h⟩ := h
    split at h
    · obtain rfl := Option.some.inj h
      exact .setPhase hc rfl rfl _
    · cases h

/-- The call that a context brings is the last one. -/
lemma call_last (cfg : SignerConfig) (s : SignerState) (context : List B256) :
    ∃ c, (s.call cfg context).calls[s.calls.length]? = some c ∧ c.context = context := by
  simp only [call]
  split
  · exact ⟨_, List.getElem?_concat_length, rfl⟩
  · exact ⟨_, List.getElem?_concat_length, rfl⟩

end SignerState

section World
variable [Toml] [Alloy] [Unicode] [RainFloat] [Abi] {D : Deployment} {w w' : World}

/-- A thread about to sign is left alone by every event but its own move. -/
lemma signs_step {e : Event} (hstep : World.step D w e = some w') {r : ℕ} {m : Move} {q : InFlight}
    {context : List B256} (hq : w.requests[r]? = some q) (hsigns : q.signs m = some context)
    (hother : ∀ i, e ≠ .move r m i) :
    ∃ q', w'.requests[r]? = some q' ∧ q'.signs m = some context := by
  cases World.took_of_step hstep with
  | frame f => exact ⟨q, hq, hsigns⟩
  | poll read hidle => exact ⟨q, hq, hsigns⟩
  | reload hpending => exact ⟨q, hq, hsigns⟩
  | arrive endpoint query body =>
    have hlt := (List.getElem?_eq_some_iff.mp hq).1
    exact ⟨q, by rw [List.getElem?_append_left hlt, hq], hsigns⟩
  | @move r' m' i q' t s hq' ht =>
    by_cases hrr : r' = r
    · subst hrr
      obtain rfl := Option.some.inj (hq.symm.trans hq')
      have hne : m' ≠ m := fun hm => hother i (hm ▸ rfl)
      refine ⟨{ q with task := t }, List.getElem?_set_self (List.getElem?_eq_some_iff.mp hq).1, ?_⟩
      exact InFlight.signs_eq_some.mpr
        (Task.asking_kept ht hne (InFlight.signs_eq_some.mp hsigns))
    · exact ⟨q, by rw [List.getElem?_set_ne hrr, hq], hsigns⟩

/-- A signature is recorded by the move that was handed it. -/
lemma signed_cases {e : Event} (hstep : World.step D w e = some w') {context : List B256}
    {signed : List UInt8 × Address} (h : w'.Signed context signed) :
    w.Signed context signed ∨ ∃ r m i q, e = .move r m i ∧ w.requests[r]? = some q ∧
      q.signs m = some context ∧ i.signed = .ok signed := by
  obtain ⟨q, hq, s₀, hmem⟩ := h
  cases World.took_of_step hstep with
  | frame f => exact .inl ⟨q, hq, s₀, hmem⟩
  | poll read hidle => exact .inl ⟨q, hq, s₀, hmem⟩
  | reload hpending => exact .inl ⟨q, hq, s₀, hmem⟩
  | arrive endpoint query body =>
    rcases List.mem_append.mp hq with hq | hq
    · exact .inl ⟨q, hq, s₀, hmem⟩
    · obtain rfl := List.mem_singleton.mp hq
      cases hmem
  | @move r m i q' t s hq' ht =>
    rcases List.mem_or_eq_of_mem_set hq with hq | rfl
    · exact .inl ⟨q, hq, s₀, hmem⟩
    · rcases Task.step_asks ht with ⟨-, htrace, -⟩ | ⟨o, answer, hasks, hp, htrace⟩
      · exact .inl ⟨q', List.mem_of_getElem? hq', s₀, htrace ▸ hmem⟩
      · rcases List.mem_append.mp (htrace ▸ hmem) with hmem | hmem
        · exact .inl ⟨q', List.mem_of_getElem? hq', s₀, hmem⟩
        · obtain heq := List.mem_singleton.mp hmem
          cases heq
          refine .inr ⟨r, m, i, q', rfl, hq', InFlight.signs_eq_some.mpr hasks, ?_⟩
          exact (Prod.mk.inj (Option.some.inj hp)).1

end World

namespace System
variable [Toml] [Alloy] [Unicode] [RainFloat] [Abi] [Cbor] [Keccak] {P : Program} {S S' : System}

/-- What the three machines have in common. -/
structure Joined (P : Program) (S : System) : Prop where
  client : S.feed.client = S.world.server.pricing
  sound : SignerState.Sound P.signer S.signer
  waiting : ∀ r m j, S.waiting.lookup (r, m) = some j → ∃ q call, S.world.requests[r]? = some q ∧
    S.signer.calls[j]? = some call ∧ q.signs m = some call.context
  signed : ∀ context signature address, S.world.Signed context (signature, address) →
    address = P.signer.address ∧ (contextHash context, signature) ∈ S.signer.produced

omit [Toml] [Alloy] [Unicode] [RainFloat] [Abi] [Cbor] in
lemma boot_joined (P : Program) (set : TokenSet) : (boot P set).Joined P where
  client := rfl
  sound := SignerState.boot_sound _
  waiting r m j h := by cases h
  signed context signature address h := by
    obtain ⟨q, hq, -⟩ := h
    cases hq

omit [Cbor] in
/-- The world moves while the signer stands still, but for a move that was handed a signature. -/
lemma Joined.world (h : S.Joined P) {e : Event} {world : World} {waiting : Map Thread ℕ}
    (hstep : World.step P.deployment S.world e = some world)
    (hwaiting : ∀ r m j, waiting.lookup (r, m) = some j → S.waiting.lookup (r, m) = some j ∧
      ∀ i, e ≠ .move r m i)
    (hsigned : ∀ r m i q context signature address, e = .move r m i →
      S.world.requests[r]? = some q → q.signs m = some context →
      i.signed = .ok (signature, address) →
      address = P.signer.address ∧ (contextHash context, signature) ∈ S.signer.produced) :
    (∀ r m j, waiting.lookup (r, m) = some j → ∃ q call, world.requests[r]? = some q ∧
      S.signer.calls[j]? = some call ∧ q.signs m = some call.context) ∧
    ∀ context signature address, world.Signed context (signature, address) →
      address = P.signer.address ∧ (contextHash context, signature) ∈ S.signer.produced := by
  refine ⟨fun r m j hj => ?_, fun context signature address hs => ?_⟩
  · obtain ⟨hj, hother⟩ := hwaiting r m j hj
    obtain ⟨q, call, hq, hcall, hsigns⟩ := h.waiting r m j hj
    obtain ⟨q', hq', hsigns'⟩ := signs_step hstep hq hsigns hother
    exact ⟨q', call, hq', hcall, hsigns'⟩
  · rcases signed_cases hstep hs with hs | ⟨r, m, i, q, he, hq, hsigns, hi⟩
    · exact h.signed context signature address hs
    · exact hsigned r m i q context signature address he hq hsigns hi

theorem Joined.step (h : S.Joined P) {e : SystemEvent} (hstep : S.step P e = some S') :
    S'.Joined P := by
  have hidle : ∀ {e : Event}, (∀ r m i, e ≠ .move r m i) → ∀ r m i q context signature address,
      e = .move r m i → S.world.requests[r]? = some q → q.signs m = some context →
      i.signed = .ok (signature, address) →
      address = P.signer.address ∧ (contextHash context, signature) ∈ S.signer.produced :=
    fun he r m i _ _ _ _ heq => absurd heq (he r m i)
  cases took_of_step hstep with
  | @socket e feed world he hfeed hworld =>
    obtain ⟨hclient, -⟩ := Feed.step_client he hfeed
    cases hf : S.feed.applied e with
    | none =>
      rw [hf] at hworld hclient
      obtain rfl := Option.some.inj hworld
      exact ⟨hclient.trans h.client, h.sound, h.waiting, h.signed⟩
    | some f =>
      rw [hf] at hworld hclient
      obtain ⟨hwaiting, hsigned⟩ := h.world (e := .frame f) hworld
        (fun r m j hj => ⟨hj, fun i hi => nomatch hi⟩) (hidle fun _ _ _ hi => nomatch hi)
      refine ⟨?_, h.sound, hwaiting, hsigned⟩
      obtain rfl := Option.some.inj hworld
      exact hclient.trans (congrArg (ClientState.step · (.frame f)) h.client)
  | @poll read world hworld =>
    obtain ⟨hwaiting, hsigned⟩ := h.world hworld (fun r m j hj => ⟨hj, fun i hi => nomatch hi⟩)
      (hidle fun _ _ _ hi => nomatch hi)
    refine ⟨?_, h.sound, hwaiting, hsigned⟩
    cases World.took_of_step hworld with
    | poll read hidle => exact h.client
  | @reload st rest feed world hpending hfeed hworld =>
    obtain ⟨hwaiting, hsigned⟩ := h.world hworld (fun r m j hj => ⟨hj, fun i hi => nomatch hi⟩)
      (hidle fun _ _ _ hi => nomatch hi)
    refine ⟨?_, h.sound, hwaiting, hsigned⟩
    cases World.took_of_step hworld with
    | reload hpending' =>
      obtain ⟨rfl, rfl⟩ := List.cons.inj (hpending.symm.trans hpending')
      have hclient : feed.client = st.logged.foldl ClientState.step S.feed.client := by
        cases st <;> exact (Option.some.inj hfeed).symm ▸ rfl
      rw [hclient, h.client]
      cases st <;> rfl
  | @arrive endpoint query body world hworld =>
    obtain ⟨hwaiting, hsigned⟩ := h.world hworld (fun r m j hj => ⟨hj, fun i hi => nomatch hi⟩)
      (hidle fun _ _ _ hi => nomatch hi)
    refine ⟨?_, h.sound, hwaiting, hsigned⟩
    cases World.took_of_step hworld with
    | arrive => exact h.client
  | @move r m i q world hq hsigns hworld =>
    have hother : ∀ r' m' j, S.waiting.lookup (r', m') = some j →
        S.waiting.lookup (r', m') = some j ∧ ∀ i', Event.move r m i ≠ .move r' m' i' := by
      refine fun r' m' j hj => ⟨hj, fun i' hi => ?_⟩
      cases hi
      obtain ⟨q', call, hq', -, hs⟩ := h.waiting r m j hj
      obtain rfl := Option.some.inj (hq.symm.trans hq')
      exact nomatch hsigns.symm.trans hs
    obtain ⟨hwaiting, hsigned⟩ := h.world hworld hother
      fun r' m' i' q' context signature address hi hq' hs _ => by
        cases hi
        obtain rfl := Option.some.inj (hq.symm.trans hq')
        exact nomatch hsigns.symm.trans hs
    refine ⟨?_, h.sound, hwaiting, hsigned⟩
    cases World.took_of_step hworld with
    | move _ ht => exact h.client.trans (congrArg Running.pricing (move_running ht)).symm
  | @sign r m q context hq hsigns hfree =>
    obtain ⟨call, hcall, hcontext⟩ := SignerState.call_last P.signer S.signer context
    have hmade : S.signer.step P.signer (.call context) = some (S.signer.call P.signer context) := rfl
    have hkept := SignerState.kept_step hmade
    refine ⟨h.client, h.sound.call context, fun r' m' j hj => ?_, fun c sig a hs => ?_⟩
    · rw [Map.lookup_insert_eq] at hj
      split at hj
      · next heq =>
        obtain ⟨rfl, rfl⟩ := Prod.mk.inj heq
        obtain rfl := Option.some.inj hj
        exact ⟨q, call, hq, hcall, hcontext ▸ hsigns⟩
      · obtain ⟨q', call', hq', hcall', hsigns'⟩ := h.waiting r' m' j hj
        obtain ⟨call'', hcall'', hsame⟩ := hkept.calls j call' hcall'
        exact ⟨q', call'', hq', hcall'', hsame ▸ hsigns'⟩
    · obtain ⟨ha, hs⟩ := h.signed c sig a hs
      exact ⟨ha, hkept.produced hs⟩
  | @answer r m j call signed world hwaiting hcall hresult hworld =>
    obtain ⟨q, call', hq, hcall', hsigns⟩ := h.waiting r m j hwaiting
    obtain rfl := Option.some.inj (hcall.symm.trans hcall')
    have hother : ∀ r' m' j', (S.waiting.erase (r, m)).lookup (r', m') = some j' →
        S.waiting.lookup (r', m') = some j' ∧
          ∀ i', Event.move r m ⟨0, signed⟩ ≠ .move r' m' i' := by
      intro r' m' j' hj'
      rw [Map.lookup_erase_eq] at hj'
      split at hj'
      · cases hj'
      · next hne =>
        refine ⟨hj', fun i' hi => hne ?_⟩
        cases hi
        rfl
    obtain ⟨hwaiting', hsigned⟩ := h.world hworld hother
      fun r' m' i' q' context signature address hi hq' hs hok => by
        cases hi
        obtain rfl := Option.some.inj (hq.symm.trans hq')
        obtain rfl := Option.some.inj (hsigns.symm.trans hs)
        obtain rfl : signed = .ok (signature, address) := hok
        exact h.sound.produced_of_returned (List.mem_of_getElem? hcall)
          (CallPhase.returned_of_result hresult)
    refine ⟨?_, h.sound, hwaiting', hsigned⟩
    cases World.took_of_step hworld with
    | move _ ht => exact h.client.trans (congrArg Running.pricing (move_running ht)).symm
  | @signer e signer he hsigner =>
    have hkept := SignerState.kept_step hsigner
    refine ⟨h.client, h.sound.step hsigner, fun r m j hj => ?_, fun c sig a hs => ?_⟩
    · obtain ⟨q, call, hq, hcall, hsigns⟩ := h.waiting r m j hj
      obtain ⟨call', hcall', hsame⟩ := hkept.calls j call hcall
      exact ⟨q, call', hq, hcall', hsame ▸ hsigns⟩
    · obtain ⟨ha, hs⟩ := h.signed c sig a hs
      exact ⟨ha, hkept.produced hs⟩

lemma run_joined {set : TokenSet} {es : List SystemEvent} (hrun : System.run P set es = some S) :
    S.Joined P :=
  Machine.run_invariant (fun _ _ _ (_ : True) h hs => h.step hs) (fun _ _ => trivial)
    (boot_joined P set) hrun

/-- A run of the system is one of the world. -/
theorem run_world {set : TokenSet} {es : List SystemEvent} (hrun : System.run P set es = some S) :
    ∃ fs, World.run P.deployment (.boot set) fs = some S.world := by
  refine Machine.run_project System.world (fun S e S' hstep => ?_) hrun
  have hone : ∀ {e world}, World.step P.deployment S.world e = some world →
      ∃ fs, Machine.run (World.step P.deployment) S.world fs = some world :=
    fun {e _} h => ⟨[e], Machine.run_cons.mpr ⟨_, h, rfl⟩⟩
  cases took_of_step hstep with
  | @socket e feed world he hfeed hworld =>
    cases hf : S.feed.applied e with
    | none =>
      rw [hf] at hworld
      exact ⟨[], hworld⟩
    | some f =>
      rw [hf] at hworld
      exact hone (e := .frame f) hworld
  | poll hworld => exact hone hworld
  | reload hpending hfeed hworld => exact hone hworld
  | arrive hworld => exact hone hworld
  | move hq hsigns hworld => exact hone hworld
  | sign hq hsigns hfree => exact ⟨[], rfl⟩
  | answer hwaiting hcall hresult hworld => exact hone hworld
  | signer he hsigner => exact ⟨[], rfl⟩

/-- It is one of the socket task. -/
theorem run_feed {set : TokenSet} {es : List SystemEvent} (hrun : System.run P set es = some S) :
    ∃ fs, Feed.run P.feed set.symbols fs = some S.feed := by
  refine Machine.run_project System.feed (fun S e S' hstep => ?_) hrun
  cases took_of_step hstep with
  | @socket e feed world he hfeed hworld => exact ⟨[e], Machine.run_cons.mpr ⟨_, hfeed, rfl⟩⟩
  | @reload st rest feed world hpending hfeed hworld =>
    cases hfed : st.fed with
    | none =>
      rw [hfed] at hfeed
      exact ⟨[], hfeed⟩
    | some e =>
      rw [hfed] at hfeed
      exact ⟨[e], Machine.run_cons.mpr ⟨feed, hfeed, rfl⟩⟩
  | _ => exact ⟨[], rfl⟩

/-- In every run of the system, a signature that is delivered, fresh, deduplicated, from
the signature cache or reused, is one the backend produced for the context it is delivered
with, under the address of this signer. -/
theorem delivered_was_produced {set : TokenSet} {es : List SystemEvent}
    (hrun : System.run P set es = some S) {q : InFlight} (hq : q ∈ S.world.requests) {i : ℕ}
    {r : OracleResponse} (hr : q.Delivered i r) :
    r.signer = P.signer.address ∧ (contextHash r.context, r.signature) ∈ S.signer.produced := by
  obtain ⟨fs, hworld⟩ := run_world hrun
  exact (run_joined hrun).signed _ _ _ (delivered_was_signed hworld hq hr)

end System

/-! The sample server with its socket to pricing and its signer: one frame, one request. -/
namespace Sample.Wired

scoped instance frames : Cbor := ⟨fun _ => .ok (.price (price 1700000060000))⟩

def program : Program := ⟨deployment, feedConfig, productionSigner⟩

def connected : List SystemEvent :=
  [.socket .check, .socket .dial, .socket (.connect (.ok ())), .socket (.send (.ok ()))]

def signing : List SystemEvent :=
  [.sign 0 .main, .signer (.spawn 0), .signer (.attempt 0 (.signed signature)), .signer (.send 0),
    .signer (.poll 0), .answer 0 .main]

def served : List SystemEvent :=
  connected ++ [.socket (.message (some (.ok (.binary ⟨#[1]⟩)))), .arrive (.pair .v5) none (encode order)] ++
    List.replicate 10 (.move 0 .main input) ++ signing ++ List.replicate 10 (.move 0 .main input)

/-- The answer at the end of the run. -/
def answer : Option OracleResponse :=
  (System.run program bootSet served).bind fun S => S.world.requests[0]?.bind fun q =>
    q.result.bind fun result => match result with
      | .ok response => response.okAt 0
      | .error _ => none

theorem signed_response_was_produced : ∃ S q r, System.run program bootSet served = some S ∧
    q ∈ S.world.requests ∧ q.Delivered 0 r ∧ r.signer = productionSigner.address ∧
      (contextHash r.context, r.signature) ∈ S.signer.produced := by
  have hsome : answer.isSome = true := by decide +kernel
  obtain ⟨r, hr⟩ := Option.isSome_iff_exists.mp hsome
  obtain ⟨S, hS, hr⟩ := Option.bind_eq_some_iff.mp hr
  obtain ⟨q, hq, hr⟩ := Option.bind_eq_some_iff.mp hr
  obtain ⟨result, hresult, hr⟩ := Option.bind_eq_some_iff.mp hr
  cases result with
  | error e => cases hr
  | ok response =>
    have hmem := List.mem_of_getElem? hq
    have hdelivered : q.Delivered 0 r := ⟨response, hresult, hr⟩
    exact ⟨S, q, r, hS, hmem, hdelivered, System.delivered_was_produced hS hmem hdelivered⟩

end Sample.Wired

end OracleServer
