import OracleServer.Lib.AbiCodec
import OracleServer.Request

/-! The two shapes of a request body, encoded as the contract ABI encodes the types of the
`sol!` block, and that the decoder tells them apart although it tries the batch first. -/
namespace OracleServer

open AbiCodec

namespace RequestCodec

def address : AbiCodec Address := leftPadded 20 (by norm_num)
def bytes32 : AbiCodec B256 := leftPadded 32 le_rfl

@[simp] lemma width_address : address.width = 32 := rfl
@[simp] lemma width_bytes32 : bytes32.width = 32 := rfl
@[simp] lemma width_uint256 : uint256.width = 32 := rfl

def io : AbiCodec IOV2 where
  dynamic := false
  size := 64
  encode x := layout [address.part x.token, bytes32.part x.vaultId]
  decode window := do
    let token ← address.readAt window 0
    let vaultId ← bytes32.readAt window 32
    pure ⟨token, vaultId⟩
  size_pos := by norm_num
  length_encode := by
    intro _ x
    simp [layout, heads, tails, address, bytes32, leftPadded, part, Part.tail]
  decode_encode := by
    intro x rest h
    have htoken := address.readAt_layout x.token [] [bytes32.part x.vaultId] rest 0 rfl h
    have hvault := bytes32.readAt_layout x.vaultId [address.part x.token] [] rest 32 (by simp) h
    simp only [List.nil_append, List.cons_append] at htoken hvault
    simp [htoken, hvault]

def evaluable : AbiCodec EvaluableV4 where
  dynamic := true
  size := 32
  encode x := layout [address.part x.interpreter, address.part x.store, bytes.part x.bytecode]
  decode window := do
    let interpreter ← address.readAt window 0
    let store ← address.readAt window 32
    let bytecode ← bytes.readAt window 64
    pure ⟨interpreter, store, bytecode⟩
  size_pos := word_pos
  length_encode := by simp
  decode_encode := by
    intro x rest h
    have hinterpreter := address.readAt_layout x.interpreter []
      [address.part x.store, bytes.part x.bytecode] rest 0 rfl h
    have hstore := address.readAt_layout x.store [address.part x.interpreter]
      [bytes.part x.bytecode] rest 32 (by simp) h
    have hbytecode := bytes.readAt_layout x.bytecode
      [address.part x.interpreter, address.part x.store] [] rest 64 (by simp) h
    simp only [List.nil_append, List.cons_append] at hinterpreter hstore hbytecode
    simp [hinterpreter, hstore, hbytecode]

@[simp] lemma width_evaluable : evaluable.width = 32 := rfl
@[simp] lemma width_ios : io.array.width = 32 := rfl

def order : AbiCodec OrderV4 where
  dynamic := true
  size := 32
  encode x := layout [address.part x.owner, evaluable.part x.evaluable,
    io.array.part x.validInputs, io.array.part x.validOutputs, bytes32.part x.nonce]
  decode window := do
    let owner ← address.readAt window 0
    let eval ← evaluable.readAt window 32
    let validInputs ← io.array.readAt window 64
    let validOutputs ← io.array.readAt window 96
    let nonce ← bytes32.readAt window 128
    pure ⟨owner, eval, validInputs, validOutputs, nonce⟩
  size_pos := word_pos
  length_encode := by simp
  decode_encode := by
    intro x rest h
    have howner := address.readAt_layout x.owner [] [evaluable.part x.evaluable,
      io.array.part x.validInputs, io.array.part x.validOutputs, bytes32.part x.nonce] rest 0 rfl h
    have heval := evaluable.readAt_layout x.evaluable [address.part x.owner]
      [io.array.part x.validInputs, io.array.part x.validOutputs, bytes32.part x.nonce] rest
      32 (by simp) h
    have hinputs := io.array.readAt_layout x.validInputs
      [address.part x.owner, evaluable.part x.evaluable]
      [io.array.part x.validOutputs, bytes32.part x.nonce] rest 64 (by simp) h
    have houtputs := io.array.readAt_layout x.validOutputs
      [address.part x.owner, evaluable.part x.evaluable, io.array.part x.validInputs]
      [bytes32.part x.nonce] rest 96 (by simp) h
    have hnonce := bytes32.readAt_layout x.nonce [address.part x.owner,
      evaluable.part x.evaluable, io.array.part x.validInputs, io.array.part x.validOutputs] []
      rest 128 (by simp) h
    simp only [List.nil_append, List.cons_append] at howner heval hinputs houtputs hnonce
    simp [howner, heval, hinputs, houtputs, hnonce]

@[simp] lemma width_order : order.width = 32 := rfl

def tuple : AbiCodec OracleRequestTuple where
  dynamic := true
  size := 32
  encode x := layout [order.part x.order, uint256.part x.inputIOIndex,
    uint256.part x.outputIOIndex, address.part x.counterparty]
  decode window := do
    let order ← order.readAt window 0
    let inputIOIndex ← uint256.readAt window 32
    let outputIOIndex ← uint256.readAt window 64
    let counterparty ← address.readAt window 96
    pure ⟨order, inputIOIndex, outputIOIndex, counterparty⟩
  size_pos := word_pos
  length_encode := by simp
  decode_encode := by
    intro x rest h
    have horder := order.readAt_layout x.order [] [uint256.part x.inputIOIndex,
      uint256.part x.outputIOIndex, address.part x.counterparty] rest 0 rfl h
    have hinput := uint256.readAt_layout x.inputIOIndex [order.part x.order]
      [uint256.part x.outputIOIndex, address.part x.counterparty] rest 32 (by simp) h
    have houtput := uint256.readAt_layout x.outputIOIndex
      [order.part x.order, uint256.part x.inputIOIndex] [address.part x.counterparty] rest
      64 (by simp) h
    have hcounterparty := address.readAt_layout x.counterparty
      [order.part x.order, uint256.part x.inputIOIndex, uint256.part x.outputIOIndex] [] rest
      96 (by simp) h
    simp only [List.nil_append, List.cons_append] at horder hinput houtput hcounterparty
    simp [horder, hinput, houtput, hcounterparty]

def encodeBatch (ts : List OracleRequestTuple) : ByteArray :=
  ⟨(tuple.array.encodeParam ts).toArray⟩

def encodeSingle (t : OracleRequestTuple) : ByteArray := ⟨(tuple.encodeParam t).toArray⟩

/-- What is assumed of alloy's `abi_decode`: it is the decoding of the ABI at the two types,
with a text of its own when that fails. -/
class LawfulAbi [Abi] : Prop where
  decodeBatch_ok : ∀ body items, Abi.decodeBatch body = .ok items ↔
    tuple.array.decodeParam body.data.toList = some items
  decodeSingle_ok : ∀ body t, Abi.decodeSingle body = .ok t ↔
    tuple.decodeParam body.data.toList = some t

/-- An address as an integer. -/
def addressNat (a : Address) : ℕ := beNat a.toList

/-- A single body from its start: the offset of the tuple, the offset of the order in it,
three words, and the order, whose owner comes first. -/
lemma encodeParam_tuple (t : OracleRequestTuple) : ∃ mid rest : List UInt8, mid.length = 96 ∧
    tuple.encodeParam t = word 32 ++ tuple.encode t ∧
    tuple.encode t = word 128 ++ (mid ++ (address.encode t.order.owner ++ rest)) := by
  obtain ⟨rest, hrest⟩ := layout_static (p := address.part t.order.owner) rfl
    [evaluable.part t.order.evaluable, io.array.part t.order.validInputs,
      io.array.part t.order.validOutputs, bytes32.part t.order.nonce]
  refine ⟨word t.inputIOIndex.toNat ++ (word t.outputIOIndex.toNat ++
    address.encode t.counterparty), rest, ?_, tuple.encodeParam_dynamic rfl t, ?_⟩
  · rw [List.length_append, List.length_append, length_word, length_word,
      address.length_encode rfl]
    rfl
  · have horder : order.encode t.order = address.encode t.order.owner ++ rest := hrest
    rw [← horder]
    change layout [order.part t.order, uint256.part t.inputIOIndex,
      uint256.part t.outputIOIndex, address.part t.counterparty] = _
    have hsize : headSize [order.part t.order, uint256.part t.inputIOIndex,
        uint256.part t.outputIOIndex, address.part t.counterparty] = 128 := by simp
    have hd : order.dynamic = true ∧ uint256.dynamic = false ∧ address.dynamic = false :=
      ⟨rfl, rfl, rfl⟩
    have huint : ∀ n : U256, uint256.encode n = word n.toNat := fun _ => rfl
    rw [layout, hsize]
    simp only [heads, tails, List.flatMap_cons, List.flatMap_nil, List.append_nil,
      List.append_assoc, part, Part.tail, hd, huint, if_true, Bool.false_eq_true, if_false]

lemma readWord_address (a : Address) (rest : List UInt8) :
    readWord (address.encode a ++ rest) = some (addressNat a) := by
  have hlen : (address.encode a).length = 32 := address.length_encode rfl a
  have hzero : beNat (List.replicate 12 (0 : UInt8)) = 0 := by decide
  have hvalue : beNat (address.encode a) = addressNat a := by
    change beNat (List.replicate 12 0 ++ a.toList) = beNat a.toList
    rw [beNat_append, hzero, Nat.mul_zero, Nat.zero_add]
  rw [readWord, if_pos (by rw [List.length_append]; omega), List.take_left' hlen, hvalue]

/-- The owner is where a batch of so many items would have the offset of its fourth. -/
lemma batch_of_single {t : OracleRequestTuple}
    (h : (tuple.encodeParam t).length ≤ addressNat t.order.owner) :
    tuple.array.decodeParam (tuple.encodeParam t) = none := by
  obtain ⟨mid, rest, hmid, hparam, htuple⟩ := encodeParam_tuple t
  set window := mid ++ (address.encode t.order.owner ++ rest) with hwindow
  rw [hparam, htuple, List.length_append, List.length_append, length_word, length_word] at h
  have hfourth : tuple.readAt window 96 = none := by
    have hdrop : window.drop 96 = address.encode t.order.owner ++ rest := List.drop_left' hmid
    change ((readWord (window.drop 96)).bind fun offset =>
      if offset ≤ window.length then tuple.decode (window.drop offset) else none) = none
    rw [hdrop, readWord_address, Option.bind_some, if_neg (by omega)]
  have hdecode : tuple.array.decode (tuple.encode t) = none := by
    rw [Option.eq_none_iff_forall_ne_some]
    intro items hitems
    rw [htuple] at hitems
    change ((readWord (word 128 ++ window)).bind fun n =>
      if n * tuple.width ≤ ((word 128 ++ window).drop 32).length then
        tuple.readAll ((word 128 ++ window).drop 32) 0 n else none) = some items at hitems
    rw [readWord_word (by norm_num), Option.bind_some, List.drop_left' (length_word 128)] at hitems
    split at hitems
    · obtain ⟨a, ha⟩ := tuple.readAt_of_readAll hitems (i := 3) (by norm_num)
      rw [show 0 + 3 * tuple.width = 96 from rfl, hfourth] at ha
      cases ha
    · cases hitems
  rw [hparam]
  change ((readWord ((word 32 ++ tuple.encode t).drop 0)).bind fun offset =>
    if offset ≤ (word 32 ++ tuple.encode t).length then
      tuple.array.decode ((word 32 ++ tuple.encode t).drop offset) else none) = none
  rw [List.drop_zero, readWord_word (by norm_num), Option.bind_some,
    if_pos (by rw [List.length_append, length_word]; omega), List.drop_left' (length_word 32),
    hdecode]

end RequestCodec

open RequestCodec

/-- The two shapes of a body are told apart. -/
theorem request_shapes_distinct [Abi] [LawfulAbi] :
    (∀ ts, (encodeBatch ts).size < 2 ^ 256 → decodeRequestBody (encodeBatch ts) = .ok ⟨ts, true⟩) ∧
    ∀ t : OracleRequestTuple, (encodeSingle t).size ≤ addressNat t.order.owner →
      decodeRequestBody (encodeSingle t) = .ok ⟨[t], false⟩ := by
  constructor
  · intro ts hsize
    have hread : tuple.array.decodeParam (encodeBatch ts).data.toList = some ts :=
      tuple.array.decodeParam_encodeParam hsize
    rw [decodeRequestBody, (LawfulAbi.decodeBatch_ok _ _).mpr hread]
  · intro t hsize
    have hshort : (encodeSingle t).size < 2 ^ 256 := by
      have hlt := beNat_lt t.order.owner.toList
      rw [Vector.length_toList] at hlt
      have hle : (encodeSingle t).size ≤ beNat t.order.owner.toList := hsize
      omega
    have hsingle : tuple.decodeParam (encodeSingle t).data.toList = some t :=
      tuple.decodeParam_encodeParam hshort
    have hbatch : tuple.array.decodeParam (encodeSingle t).data.toList = none :=
      batch_of_single hsize
    rw [decodeRequestBody]
    cases hdecode : Abi.decodeBatch (encodeSingle t) with
    | ok items =>
      rw [(LawfulAbi.decodeBatch_ok _ _).mp hdecode] at hbatch
      cases hbatch
    | error e =>
      dsimp only
      rw [(LawfulAbi.decodeSingle_ok _ _).mpr hsingle]

namespace Sample

def overrun : String := "ABI decoding failed: buffer overrun while deserializing"

def orOverrun {α : Type} (x : Option α) : Except String α := x.elim (.error overrun) .ok

lemma orOverrun_ok {α : Type} {x : Option α} {a : α} : orOverrun x = .ok a ↔ x = some a := by
  cases x <;> simp [orOverrun]

/-- The decoding of the ABI, with alloy's text for data that ends too early. -/
@[reducible] def standardAbi : Abi where
  decodeBatch body := orOverrun (tuple.array.decodeParam body.data.toList)
  decodeSingle body := orOverrun (tuple.decodeParam body.data.toList)

lemma standardAbi_lawful : @LawfulAbi standardAbi :=
  @LawfulAbi.mk standardAbi (fun _ _ => orOverrun_ok) (fun _ _ => orOverrun_ok)

/-- An order of one pair, with a little bytecode. -/
def onePair : OracleRequestTuple where
  order := ⟨Vector.replicate 20 1, ⟨Vector.replicate 20 2, Vector.replicate 20 3, [1, 2, 3]⟩,
    [⟨Vector.replicate 20 0x11, Vector.replicate 32 0⟩],
    [⟨Vector.replicate 20 0x22, Vector.replicate 32 0⟩], Vector.replicate 32 0⟩
  inputIOIndex := 0
  outputIOIndex := 0
  counterparty := Vector.replicate 20 0

theorem one_pair_in_both_shapes :
    @decodeRequestBody standardAbi (encodeBatch [onePair, onePair]) =
      .ok ⟨[onePair, onePair], true⟩ ∧
    @decodeRequestBody standardAbi (encodeSingle onePair) = .ok ⟨[onePair], false⟩ := by
  have hshapes := @request_shapes_distinct standardAbi standardAbi_lawful
  exact ⟨hshapes.1 [onePair, onePair] (by decide +kernel), hshapes.2 onePair (by decide +kernel)⟩

end Sample

end OracleServer
