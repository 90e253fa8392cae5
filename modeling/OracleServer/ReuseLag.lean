import OracleServer.SignedTimes

/-! How far a reused response may lag the clock. A stored response keeps the expiry that
it signs beside it, and both of its times come from one frame: the margin of the lookup
bounds the expiry from below, the horizon of the frames bounds the publish time by the
expiry. -/
namespace OracleServer

open Interaction

/-- The price may be traded on for at most `horizon` seconds from its source time on. -/
def PriceFrame.Within (horizon : ℤ) (p : PriceFrame) : Prop :=
  ∀ deadline, p.executionDeadlineUnixMs = some deadline →
    min p.expiryUnixMs.toInt deadline.toInt ≤ p.sourceTsUnixMs.toInt + 1000 * horizon

section Journal
variable [Toml] [Alloy] [Unicode] [RainFloat] [Abi] {D : Deployment}

lemma frames_step {w w' : World} {e : Event} (hstep : World.step D w e = some w') {f : ServerFrame}
    (hf : ClientEvent.frame f ∈ w'.server.journal) :
    ClientEvent.frame f ∈ w.server.journal ∨ e = .frame f := by
  cases World.took_of_step hstep with
  | frame f' =>
    have hmem : ClientEvent.frame f ∈ w.server.journal ++ [.frame f'] := hf
    simpa [eq_comm] using hmem
  | poll read hidle => exact .inl hf
  | @reload st rest hpending =>
    have hmem : ClientEvent.frame f ∈ w.server.journal ++ st.logged := by
      rw [← Server.reload_journal]
      exact hf
    cases st <;> simpa [ReloadStep.logged] using hmem
  | arrive endpoint query body => exact .inl hf
  | @move r m i q t s hq ht =>
    have hjournal : s.journal = w.server.journal := by rw [move_running ht]
    exact .inl (hjournal ▸ hf)

/-- The frames in the journal are the frames of the run. -/
lemma frames_run {set : TokenSet} {es : List Event} {w : World}
    (hrun : World.run D (.boot set) es = some w) {f : ServerFrame}
    (hf : ClientEvent.frame f ∈ w.server.journal) : Event.frame f ∈ es := by
  induction es using List.reverseRecOn generalizing w with
  | nil =>
    obtain rfl := Option.some.inj hrun
    cases hf
  | append_singleton es e ih =>
    obtain ⟨u, hu, hstep⟩ := Machine.run_snoc.mp hrun
    rcases frames_step hstep hf with hold | rfl
    · exact List.mem_append_left _ (ih hu hold)
    · simp

end Journal

section Stored
variable [RainFloat] {D : Deployment} {a : List Symbol} {H : Assume} {log : List ClientEvent}
  {key : ReuseKey} {stored : Stored}

/-- The expiry kept beside a response is the one it signs. -/
lemma Provenance.expiry (h : Provenance D a H log key stored) :
    ∃ slot, stored.response.context[expirySlot]? = some slot ∧
      Encodes slot stored.expiryUnixSecs := by
  obtain ⟨schema, pair, x, y, q, -, hsigns, -, -, hfrom⟩ := h
  obtain ⟨publish, session, price, -, -, -, -, hcontext⟩ := hfrom.builds
  exact (buildContext_ok hsigns hcontext).1.expiry

/-- Both times of a stored response come from one frame of the log. -/
lemma Provenance.dated (hclock : ∀ t, H.clock t → 0 ≤ t.toInt)
    (h : Provenance D a H log key stored) :
    ∃ p, ClientEvent.frame (.price p) ∈ log ∧
      Dates (Quote.ofPrice p) stored.response.context stored.expiryUnixSecs := by
  obtain ⟨schema, pair, x, y, q, -, hsigns, -, hin, hfrom⟩ := h
  obtain ⟨l₁, p, l₂, rfl, -, rfl, -⟩ := hin
  obtain ⟨effective, t, heffective, ht, hlive⟩ := hfrom.live
  have hpos := quoteIsLive_pos (hclock t ht) hlive
  exact ⟨p, by simp, hfrom.builds.dates hsigns heffective hpos.le⟩

end Stored

/-- The response states both of its times: at second `n` its expiry is at least the margin
`m` away, and its publish time lags by no more than what the horizon leaves beyond `m`. -/
def LagsWithin [RainFloat] (horizon : ℤ) (n m : ℕ) (r : ReusedResponse) : Prop :=
  ∃ slot₂ slot₈ publish, r.response.context[publishTimeSlot]? = some slot₂ ∧
    Encodes slot₂ publish ∧ r.response.context[expirySlot]? = some slot₈ ∧
    Encodes slot₈ r.expiryUnixSecs ∧ n + m ≤ r.expiryUnixSecs.toNat ∧
    (n : ℤ) + m - horizon ≤ publish.toNat ∧ (n : ℤ) - publish.toNat ≤ horizon - m

section Lag
variable [RainFloat]

lemma Dates.lagsWithin {p : PriceFrame} {stored : Stored} {horizon : ℤ} {context : List B256}
    {expiry n m : UInt64} {r : ReusedResponse} (hwithin : p.Within horizon)
    (h : Dates (Quote.ofPrice p) stored.response.context stored.expiryUnixSecs)
    (hr : stored.reusable context expiry n m = some r) : LagsWithin horizon n.toNat m.toNat r := by
  obtain ⟨rfl, -, -, hmargin⟩ := reusable_some hr
  obtain ⟨slot₂, publish, hslot₂, henc₂, hpublish⟩ := h.publish
  obtain ⟨slot₈, hslot₈, henc₈⟩ := h.signed
  obtain ⟨deadline, hdeadline, hpos, hexpiry⟩ := h.bound
  have hbound := hwithin deadline hdeadline
  change (publish.toNat : ℤ) = p.sourceTsUnixMs.toInt / 1000 at hpublish
  change (stored.expiryUnixSecs.toNat : ℤ) = min p.expiryUnixMs.toInt deadline.toInt / 1000 at hexpiry
  -- an expiry in milliseconds is below the point where the margin saturates
  have hsmall : stored.expiryUnixSecs.toNat < 2 ^ 63 := by
    have hlt : deadline.toInt < 2 ^ 63 := deadline.toInt_lt
    omega
  have hleft : n.toNat + m.toNat ≤ stored.expiryUnixSecs.toNat := by
    have hnot := UInt64.not_lt.mpr hmargin
    rw [lt_saturatingAdd hsmall] at hnot
    omega
  refine ⟨slot₂, slot₈, publish, hslot₂, henc₂, hslot₈, henc₈, hleft, ?_, ?_⟩
  · omega
  · omega

omit [RainFloat] in
/-- A lookup hands back an entry that the map held, and only if the entry passes. -/
lemma reuseLookup_returns {D : Deployment} {key : ReuseKey} {context : List B256}
    {expiry n : UInt64} {g : QuoteGeneration} {r : ReusedResponse} {found : Option Stored}
    {answer : (o : Op) → Option o.Answer} (hget : answer (.reuseGet key) = some found)
    (h : (reuseLookup D key context expiry n g).run.evalWith answer = some (.ok (some r))) :
    ∃ stored, found = some stored ∧
      stored.reusable context expiry n D.minRemainingSecs = some r := by
  unfold reuseLookup at h
  split at h
  · cases h
  change (answer (.reuseGet key)).bind _ = _ at h
  obtain ⟨found', hfound, h⟩ := Option.bind_eq_some_iff.mp h
  obtain rfl := Option.some.inj (hget.symm.trans hfound)
  cases found with
  | none => cases h
  | some stored =>
    change Prog.evalWith answer (ExceptT.run (if stored.generation ≠ g then pure none else _)) = _ at h
    split at h
    · cases h
    obtain ⟨live, -, hlive⟩ := Option.bind_eq_some_iff.mp h
    cases live with
    | false => cases hlive
    | true => exact ⟨stored, rfl, Except.ok.inj (Option.some.inj hlive)⟩

variable [Toml] [Alloy] [Unicode] [Abi]

/-- Every entry of the reuse cache keeps the expiry that its response signs, and in a run
whose frames all keep to the horizon no lookup, at whatever second, hands back a response
that lags more than the horizon less the margin. -/
theorem reuse_lag_is_bounded (D : Deployment) (set : TokenSet) (horizon : ℤ) (es : List Event)
    (hframes : ∀ p, .frame (.price p) ∈ es → p.Within horizon)
    (hclock : ∀ e ∈ es, e.Clocked fun t => 0 ≤ t.toInt) (w : World)
    (hrun : World.run D (.boot set) es = some w) :
    (∀ key stored, w.server.reuse.lookup key = some stored →
      ∃ slot, stored.response.context[expirySlot]? = some slot ∧
        Encodes slot stored.expiryUnixSecs) ∧
    ∀ key context expiry n g r (answer : (o : Op) → Option o.Answer),
      answer (.reuseGet key) = some (w.server.reuse.lookup key) →
      (reuseLookup D key context expiry n g).run.evalWith answer = some (.ok (some r)) →
      LagsWithin horizon n.toNat D.minRemainingSecs.toNat r := by
  have hclosed : Assume.Closed ⟨fun t => 0 ≤ t.toInt, fun _ => True⟩ D.staticConfig :=
    ⟨fun _ _ => trivial, fun _ _ _ => trivial⟩
  have hsound := (safe_run hclosed trivial hclock hrun).server
  constructor
  · intro key stored hstored
    exact (hsound.reuse key stored hstored).expiry
  · intro key context expiry n g r answer hget hreturns
    obtain ⟨stored, hstored, hr⟩ := reuseLookup_returns hget hreturns
    obtain ⟨p, hp, hdates⟩ := (hsound.reuse key stored hstored).dated fun _ ht => ht
    exact hdates.lagsWithin (hframes p (frames_run hrun hp)) hr

end Lag

namespace Sample

/-- Fifteen seconds after the frame the response stored by the sample run is still offered. -/
def offered (w : World) : Option ReusedResponse :=
  (w.server.reuse.lookup (reuseKey ⟨"wtCOIN", coin, .quoteToBase⟩ usdc coin .v5)).bind fun stored =>
    ((reuseLookup deployment (reuseKey ⟨"wtCOIN", coin, .quoteToBase⟩ usdc coin .v5)
      stored.response.context stored.expiryUnixSecs 1700000015 stored.generation).run.evalWith
        fun o => match o with
          | .reuseGet key => some (w.server.reuse.lookup key)
          | .isLive _ g => some (w.server.pricing.cache.isLive g)
          | _ => none).bind fun r => r.toOption.join

theorem offered_lags_within : ∃ w r, World.run deployment (.boot bootSet) events = some w ∧
    offered w = some r ∧ LagsWithin 30 1700000015 10 r := by
  have hoffered : ((World.run deployment (.boot bootSet) events).bind offered).isSome = true := by
    decide +kernel
  obtain ⟨r, hr⟩ := Option.isSome_iff_exists.mp hoffered
  obtain ⟨w, hrun, hr⟩ := Option.bind_eq_some_iff.mp hr
  have hframes : ∀ p, .frame (.price p) ∈ events → p.Within 30 := by
    intro p hp deadline hdeadline
    have hcases : p = price 1700000060000 ∨ p = price 1700000090000 := by simpa [events] using hp
    rcases hcases with rfl | rfl
    · obtain rfl := Option.some.inj hdeadline
      decide
    · obtain rfl := Option.some.inj hdeadline
      decide
  obtain ⟨-, hlags⟩ := reuse_lag_is_bounded deployment bootSet 30 events hframes events_clocked w hrun
  obtain ⟨stored, hstored, hbind⟩ := Option.bind_eq_some_iff.mp hr
  obtain ⟨result, heval, hresult⟩ := Option.bind_eq_some_iff.mp hbind
  cases result with
  | error e => cases hresult
  | ok found =>
    cases found with
    | none => cases hresult
    | some r' =>
      obtain rfl := Option.some.inj hresult
      exact ⟨w, r', hrun, hr, hlags _ _ _ _ _ _ _ (by rfl) heval⟩

end Sample

end OracleServer
