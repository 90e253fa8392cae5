import OracleServer.ItemModes
import OracleServer.RequestShapes
import OracleServer.WorldSafety

/-! A world that stands still: the clock, the signer, the token set and the quotes do not
change while a request is served. There the phases of an item have outcomes of their own,
computed from the item, as long as none of them reads the reuse cache. -/
namespace OracleServer

open Interaction Interaction.Contract

/-- The answers of the operations in a world that stands still. -/
def Running.answer (D : Deployment) (i : Input) (r : Running) : (o : Op) → Option o.Answer
  | .isLive _ g => some (r.pricing.cache.isLive g)
  | .tokens _ => some r.tokens
  | .nowUnixMs _ => some i.nowUnixMs
  | .snapshotMany _ symbols => some (r.pricing.cache.snapshotMany D.chainId symbols)
  | .reuseGet _ => none
  | .reuseInsert _ stored => some (r.pricing.cache.isLive stored.generation)
  | .signContext _ => some i.signed
  | .count _ => some ()

/-- Other requests may still store and count. -/
def Environment.still (D : Deployment) (i : Input) (r : Running) : Environment D where
  Admissible j := j = i
  Inv s := s.toRunning = r
  Rel _ _ := True
  refl _ := trivial
  trans _ _ := trivial
  keeps _ hs hp := by
    rcases Server.perform_cases hp with rfl | ⟨m, rfl⟩ | ⟨key, stored, -, -, rfl⟩
    · exact ⟨hs, trivial⟩
    · exact ⟨hs, trivial⟩
    · exact ⟨hs, trivial⟩

section Still
variable {D : Deployment} {i : Input} {r : Running}

lemma still_always {α : Type} {p : Prog Op Op.Answer α} {x : α}
    (h : p.evalWith (r.answer D i) = some x) :
    (Environment.still D i r).contract.Always (· = x) p := by
  refine Always.of_eval (fun _ _ => trivial) (fun {j o s a s' b} hj hs hb hp => ?_) h
  obtain rfl : j = i := hj
  obtain rfl : s.toRunning = r := hs
  cases o with
  | reuseGet key => cases hb
  | reuseInsert key stored =>
    change some (s.storeWhileLive key stored) = some (a, s') at hp
    unfold Server.storeWhileLive at hp
    split at hp
    · next hlive =>
      have ha := (Prod.mk.inj (Option.some.inj hp)).1
      rw [← ha, ← Option.some.inj hb, hlive]
    · next hdead =>
      have ha := (Prod.mk.inj (Option.some.inj hp)).1
      rw [← ha, ← Option.some.inj hb]
      exact (Bool.eq_false_iff.mpr hdead).symm
  | _ => exact (Prod.mk.inj (Option.some.inj hp)).1.symm.trans (Option.some.inj hb)

/-- What an item's program returns, if it does without the reuse cache. -/
def stillValue {α : Type} (D : Deployment) (i : Input) (r : Running) (x : Act α) :
    Except AppError α :=
  (x.run.evalWith (r.answer D i)).getD (.error (.internal "read the reuse cache"))

def Settles {α : Type} (D : Deployment) (i : Input) (r : Running) (x : Act α) : Prop :=
  (x.run.evalWith (r.answer D i)).isSome = true

lemma Settles.always {α : Type} {x : Act α} (h : Settles D i r x) :
    (Environment.still D i r).contract.Always (· = stillValue D i r x) x.run := by
  apply still_always
  obtain ⟨v, hv⟩ := Option.isSome_iff_exists.mp h
  rw [stillValue, hv, Option.getD_some]

variable [Alloy] [RainFloat]

/-- The programs of the phases, once the request has made its reads. -/
def stillBuild (D : Deployment) (r : Running) (schema : PairSchema) (slots : List ResolvedSlot)
    (slot : ResolvedSlot) : Act BuiltSlot :=
  match (r.pricing.cache.snapshotMany D.chainId (slots.map fun s => s.pair.symbol)).lookup
      slot.pair.symbol with
  | none => noLiveQuote schema.tag slot.pair.symbol
  | some quote => do
    let response ← buildResponseFromQuotePairBound D slot.pair quote slot.inputToken
      slot.outputToken schema
    pure ⟨slot.pair, quote, response⟩

def stillRecheck (D : Deployment) (i : Input) (r : Running) (schema : PairSchema)
    (built : List BuiltSlot) : BuiltSlot → Act OracleResponse :=
  revalidateSlot schema.tag schema.signsExpiry i.nowUnixMs
    (r.pricing.cache.snapshotMany D.chainId (built.map fun s => s.pair.symbol)) r.tokens.registry

/-- The outcomes of the phases of a batch. -/
def stillOutcomes (D : Deployment) (i : Input) (r : Running) (schema : PairSchema)
    (items : List OracleRequestTuple) : Outcomes ResolvedSlot BuiltSlot :=
  let resolve := resolveSlot r.tokens.registry
  let build slot := stillValue D i r (stillBuild D r schema (oks (items.map resolve)) slot)
  let built := oks (items.map fun req => resolve req >>= build)
  ⟨resolve, build, fun b => stillValue D i r (stillRecheck D i r schema built b)⟩

/-- None of the programs of the batch reads the reuse cache. -/
def Aside (D : Deployment) (i : Input) (r : Running) (schema : PairSchema)
    (items : List OracleRequestTuple) : Prop :=
  let o := stillOutcomes D i r schema items
  (∀ slot ∈ oks (items.map o.resolve),
    Settles D i r (stillBuild D r schema (oks (items.map o.resolve)) slot)) ∧
  ∀ b ∈ oks (items.map fun req => o.resolve req >>= o.build),
    Settles D i r (stillRecheck D i r schema (oks (items.map fun req => o.resolve req >>= o.build)) b)

theorem pairBound_fixed {schema : PairSchema} {items : List OracleRequestTuple}
    (h : Aside D i r schema items) :
    Fixed (Environment.still D i r) (pairBound D schema) (.pair schema)
      (stillOutcomes D i r schema items) items := by
  have hresolver : (pairBound D schema).resolver.run.evalWith (r.answer D i) =
      some (.ok (resolveSlot r.tokens.registry)) := rfl
  have hbuilder : ∀ slots, ((pairBound D schema).builder slots).run.evalWith (r.answer D i) =
      some (.ok (stillBuild D r schema slots)) := fun _ => rfl
  have hrechecker : ∀ built, ((pairBound D schema).rechecker built).run.evalWith (r.answer D i) =
      some (.ok (stillRecheck D i r schema built)) := fun _ => rfl
  constructor
  · refine (still_always hresolver).mono ?_
    rintro _ rfl
    exact ⟨_, rfl, fun _ _ => rfl⟩
  · intro _
    refine (still_always (hbuilder _)).mono ?_
    rintro _ rfl
    refine ⟨_, rfl, fun req hreq slot hslot => ?_⟩
    exact (h.1 slot (mem_oks.mpr (List.mem_map.mpr ⟨req, hreq, hslot⟩))).always
  · intro _
    refine (still_always (hrechecker _)).mono ?_
    rintro _ rfl
    refine ⟨_, rfl, fun req hreq slot b hslot hb => ?_⟩
    have hbuilt : (stillOutcomes D i r schema items).resolve req >>=
        (stillOutcomes D i r schema items).build = .ok b := by
      rw [hslot]
      exact hb
    exact (h.2 b (mem_oks.mpr (List.mem_map.mpr ⟨req, hreq, hbuilt⟩))).always

end Still

namespace Sample

/-- The sample deployment with reuse off, and the server once it has a price. -/
def plainDeployment : Deployment := ⟨staticConfig, { bootConfig with signing := ⟨0⟩ }⟩

def priced : Running :=
  (World.boot bootSet).server.toRunning.observe (.frame (.price (price 1700000060000)))

/-- An order whose pair resolves, and one that asks for an input it does not have. -/
def mixedBatch : List OracleRequestTuple := [order, { order with inputIOIndex := 1 }]

lemma mixedBatch_aside : Aside plainDeployment input priced .v5 mixedBatch := by
  unfold Aside Settles
  decide +kernel

theorem mixed_batch_is_answered :
    (Environment.still plainDeployment input priced).contract.Returns
      (@postSignedContext _ _ standardAbi (pairBound plainDeployment .v5) (.pair .v5)
        (some "allowFailure=true") (RequestCodec.encodeBatch mixedBatch)) ⟨priced, ∅, []⟩
      (· = .ok (.envelope (mixedBatch.map fun req => .ofResult
        (((stillOutcomes plainDeployment input priced .v5 mixedBatch).on (.pair .v5)).outcome
          req)))) := by
  let _ : Abi := standardAbi
  have hbody : decodeRequestBody (RequestCodec.encodeBatch mixedBatch) = .ok ⟨mixedBatch, true⟩ := by
    have hread := RequestCodec.tuple.array.decodeParam_encodeParam (a := mixedBatch)
      (by decide +kernel)
    have hdecode : Abi.decodeBatch (RequestCodec.encodeBatch mixedBatch) = .ok mixedBatch :=
      orOverrun_ok.mpr hread
    rw [decodeRequestBody, hdecode]
  have hstill : (Environment.still plainDeployment input priced).Inv ⟨priced, ∅, []⟩ := rfl
  have hmodes := modes_agree (pairBound_fixed mixedBatch_aside) hstill
  exact hmodes.1 _ _ hbody (by decide)

end Sample

end OracleServer
