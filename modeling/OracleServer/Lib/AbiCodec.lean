import OracleServer.Lib.BigEndian

/-! Head and tail encoding, as the contract ABI lays data out. A value of a dynamic type
is met as an offset in the head of what holds it, and lies in the tail; offsets count from
the start of the window that holds them. A codec carries its round trip. -/
namespace OracleServer

namespace AbiCodec

/-- A word, and the number it spells. -/
def word (n : ℕ) : List UInt8 := beBytes 32 n

def readWord (window : List UInt8) : Option ℕ :=
  if 32 ≤ window.length then some (beNat (window.take 32)) else none

/-- A field of a tuple or an element of an array, encoded. -/
structure Part where
  dynamic : Bool
  bytes : List UInt8

namespace Part

def head (p : Part) : ℕ := if p.dynamic then 32 else p.bytes.length
def tail (p : Part) : List UInt8 := if p.dynamic then p.bytes else []

end Part

def headSize (parts : List Part) : ℕ := (parts.map Part.head).sum
def tails (parts : List Part) : List UInt8 := parts.flatMap Part.tail

/-- The heads, when the next tail goes to `offset`. -/
def heads : ℕ → List Part → List UInt8
  | _, [] => []
  | offset, p :: ps =>
    (if p.dynamic then word offset else p.bytes) ++ heads (offset + p.tail.length) ps

def layout (parts : List Part) : List UInt8 := heads (headSize parts) parts ++ tails parts

@[simp] lemma headSize_nil : headSize [] = 0 := rfl

@[simp] lemma headSize_cons (p : Part) (ps : List Part) :
    headSize (p :: ps) = p.head + headSize ps := rfl

lemma length_word (n : ℕ) : (word n).length = 32 := length_beBytes 32 n

lemma readWord_word {n : ℕ} (h : n < 2 ^ 256) (rest : List UInt8) :
    readWord (word n ++ rest) = some n := by
  have hlen : 32 ≤ (word n ++ rest).length := by simp [length_word]
  have htake : (word n ++ rest).take 32 = word n := by
    rw [← length_word n, List.take_left]
  rw [readWord, if_pos hlen, htake, word, beNat_beBytes h]

lemma length_heads (offset : ℕ) (parts : List Part) :
    (heads offset parts).length = headSize parts := by
  induction parts generalizing offset with
  | nil => rfl
  | cons p ps ih =>
    rw [heads, List.length_append, ih]
    rw [headSize_cons, Part.head]
    split <;> simp [length_word]

/-- A layout starts with its first part, or with the offset of that. -/
lemma layout_static {p : Part} (hp : p.dynamic = false) (ps : List Part) :
    ∃ rest, layout (p :: ps) = p.bytes ++ rest := by
  refine ⟨heads (headSize (p :: ps) + p.tail.length) ps ++ tails (p :: ps), ?_⟩
  simp [layout, heads, hp]

lemma heads_append (offset : ℕ) (ps qs : List Part) :
    heads offset (ps ++ qs) = heads offset ps ++ heads (offset + (tails ps).length) qs := by
  induction ps generalizing offset with
  | nil => simp [heads, tails]
  | cons p ps ih =>
    simp only [List.cons_append, heads, ih, tails, List.flatMap_cons, List.length_append,
      List.append_assoc, Nat.add_assoc]

lemma tails_append (ps qs : List Part) : tails (ps ++ qs) = tails ps ++ tails qs := by
  simp [tails]

end AbiCodec

open AbiCodec

/-- An encoding, a decoder that reads from the start of a window, and that it reads back
what was encoded, whatever follows. -/
structure AbiCodec (α : Type) where
  dynamic : Bool
  size : ℕ
  encode : α → List UInt8
  decode : List UInt8 → Option α
  size_pos : 0 < size
  length_encode : dynamic = false → ∀ a, (encode a).length = size
  decode_encode : ∀ a rest, (encode a ++ rest).length < 2 ^ 256 →
    decode (encode a ++ rest) = some a

namespace AbiCodec

variable {α : Type} (c : AbiCodec α)

def part (a : α) : Part := ⟨c.dynamic, c.encode a⟩

def width : ℕ := if c.dynamic then 32 else c.size

/-- The value whose head is at `pos` of the window; none when an offset leaves it. -/
def readAt (window : List UInt8) (pos : ℕ) : Option α :=
  if c.dynamic then
    (readWord (window.drop pos)).bind fun offset =>
      if offset ≤ window.length then c.decode (window.drop offset) else none
  else c.decode (window.drop pos)

@[simp] lemma head_part (a : α) : (c.part a).head = c.width := by
  unfold part Part.head width
  cases hd : c.dynamic with
  | true => rfl
  | false => exact c.length_encode hd a

/-- What was laid out is read back at its place among the heads. -/
lemma readAt_layout (a : α) (before after : List Part) (rest : List UInt8) (pos : ℕ)
    (hpos : headSize before = pos)
    (h : (layout (before ++ c.part a :: after) ++ rest).length < 2 ^ 256) :
    c.readAt (layout (before ++ c.part a :: after) ++ rest) pos = some a := by
  subst hpos
  set parts := before ++ c.part a :: after with hparts
  set offset := headSize parts + (tails before).length with hoffset
  have hheads : heads (headSize parts) parts =
      heads (headSize parts) before ++ heads offset (c.part a :: after) := by
    rw [hparts, heads_append]
  have hhead : (layout parts ++ rest).drop (headSize before) =
      heads offset (c.part a :: after) ++ (tails parts ++ rest) := by
    rw [layout, hheads, List.append_assoc, List.append_assoc,
      ← length_heads (headSize parts) before, List.drop_left]
  have hshort : ∀ n, ((layout parts ++ rest).drop n).length < 2 ^ 256 := by
    intro n
    rw [List.length_drop]
    omega
  have hcut : layout parts ++ rest = (heads (headSize parts) parts ++ tails before) ++
      (tails (c.part a :: after) ++ rest) := by
    rw [layout, hparts, tails_append]
    simp only [List.append_assoc]
  have hlen : offset = (heads (headSize parts) parts ++ tails before).length := by
    rw [List.length_append, length_heads]
  have htail : (layout parts ++ rest).drop offset = tails (c.part a :: after) ++ rest := by
    rw [hcut, hlen, List.drop_left]
  unfold readAt
  cases hd : c.dynamic with
  | false =>
    have hdec := hshort (headSize before)
    rw [hhead, heads, part, hd, if_neg (by simp), List.append_assoc] at hdec
    rw [if_neg (by simp), hhead, heads, part, hd, if_neg (by simp), List.append_assoc]
    exact c.decode_encode a _ hdec
  | true =>
    have hle : offset ≤ (layout parts ++ rest).length := by
      rw [hcut, hlen]
      exact (List.prefix_append _ _).length_le
    have hdec := hshort offset
    rw [htail, tails, List.flatMap_cons, Part.tail, part, hd, if_pos rfl, List.append_assoc] at hdec
    rw [if_pos rfl, hhead, heads, part, hd, if_pos rfl, List.append_assoc,
      readWord_word (lt_of_le_of_lt hle h), Option.bind_some, if_pos hle, htail, tails,
      List.flatMap_cons, Part.tail, part, hd, if_pos rfl, List.append_assoc]
    exact c.decode_encode a _ hdec

lemma word_pos : 0 < 32 := by norm_num

/-- Bytes of a fixed width, with zeros before them up to a word. -/
def leftPadded (n : ℕ) (hn : n ≤ 32) : AbiCodec (Vector UInt8 n) where
  dynamic := false
  size := 32
  encode v := List.replicate (32 - n) 0 ++ v.toList
  decode window :=
    if h : 32 ≤ window.length then
      some ⟨((window.take 32).drop (32 - n)).toArray, by simp; omega⟩
    else none
  size_pos := word_pos
  length_encode := by
    intro _ v
    simp
    omega
  decode_encode := by
    intro v rest _
    have hlen : (List.replicate (32 - n) 0 ++ v.toList).length = 32 := by
      simp
      omega
    have htake : ((List.replicate (32 - n) 0 ++ v.toList) ++ rest).take 32 =
        List.replicate (32 - n) 0 ++ v.toList := List.take_left' hlen
    rw [dif_pos (by rw [List.length_append, hlen]; omega)]
    apply congrArg some
    apply Vector.toList_inj.mp
    simp only [Vector.toList_mk, htake]
    rw [List.drop_left' (by simp)]

/-- An unsigned integer of a full word. -/
def uint256 : AbiCodec (BitVec 256) where
  dynamic := false
  size := 32
  encode n := word n.toNat
  decode window := (readWord window).map (BitVec.ofNat 256)
  size_pos := word_pos
  length_encode := by
    intro _ n
    exact length_word _
  decode_encode := by
    intro n rest _
    rw [readWord_word n.isLt]
    simp

/-- `bytes`: the length, and the bytes with zeros after them up to a word. -/
def bytes : AbiCodec (List UInt8) where
  dynamic := true
  size := 32
  encode b := word b.length ++ (b ++ List.replicate ((32 - b.length % 32) % 32) 0)
  decode window :=
    (readWord window).bind fun n =>
      if n ≤ (window.drop 32).length then some ((window.drop 32).take n) else none
  size_pos := word_pos
  length_encode := by simp
  decode_encode := by
    intro b rest h
    have hb : b.length < 2 ^ 256 := by
      simp only [List.length_append] at h
      omega
    rw [List.append_assoc, readWord_word hb, Option.bind_some, ← length_word b.length,
      List.drop_left, List.append_assoc, if_pos (by simp), List.take_left]

/-- `n` values whose heads stand one after the other from `pos` on. -/
def readAll (window : List UInt8) : ℕ → ℕ → Option (List α)
  | _, 0 => some []
  | pos, n + 1 =>
    (c.readAt window pos).bind fun a => (readAll window (pos + c.width) n).map (a :: ·)

lemma width_pos : 0 < c.width := by
  unfold width
  split
  · norm_num
  · exact c.size_pos

lemma headSize_map (l : List α) : headSize (l.map c.part) = l.length * c.width := by
  induction l with
  | nil => simp
  | cons a l ih =>
    rw [List.map_cons, headSize_cons, c.head_part, ih, List.length_cons]
    ring

lemma readAll_layout {l : List α} {rest : List UInt8}
    (h : (layout (l.map c.part) ++ rest).length < 2 ^ 256) (before after : List α)
    (hl : l = before ++ after) :
    c.readAll (layout (l.map c.part) ++ rest) (before.length * c.width) after.length =
      some after := by
  induction after generalizing before with
  | nil => rfl
  | cons a after ih =>
    have hparts : l.map c.part = before.map c.part ++ c.part a :: after.map c.part := by
      rw [hl, List.map_append, List.map_cons]
    have hread := c.readAt_layout a (before.map c.part) (after.map c.part) rest _
      (c.headSize_map before) (hparts ▸ h)
    rw [← hparts] at hread
    have hnext := ih (before ++ [a]) (by rw [hl, List.append_assoc]; rfl)
    rw [List.length_append, List.length_singleton, Nat.add_mul, Nat.one_mul] at hnext
    rw [List.length_cons, readAll, hread, Option.bind_some, hnext, Option.map_some]

/-- All the values are there, when all of them are read. -/
lemma readAt_of_readAll {window : List UInt8} {pos n : ℕ} {l : List α}
    (h : c.readAll window pos n = some l) {i : ℕ} (hi : i < n) :
    ∃ a, c.readAt window (pos + i * c.width) = some a := by
  induction n generalizing pos l i with
  | zero => omega
  | succ n ih =>
    rw [readAll] at h
    obtain ⟨a, ha, h⟩ := Option.bind_eq_some_iff.mp h
    obtain ⟨l', hl', -⟩ := Option.map_eq_some_iff.mp h
    cases i with
    | zero => exact ⟨a, by simpa using ha⟩
    | succ i =>
      obtain ⟨b, hb⟩ := ih hl' (Nat.lt_of_succ_lt_succ hi)
      refine ⟨b, ?_⟩
      rw [Nat.add_mul, Nat.one_mul, Nat.add_comm (i * c.width), ← Nat.add_assoc]
      exact hb

/-- An array: its length, and its elements laid out in a window of their own. -/
def array : AbiCodec (List α) where
  dynamic := true
  size := 32
  encode l := word l.length ++ layout (l.map c.part)
  decode window :=
    (readWord window).bind fun n =>
      if n * c.width ≤ (window.drop 32).length then c.readAll (window.drop 32) 0 n else none
  size_pos := word_pos
  length_encode := by simp
  decode_encode := by
    intro l rest h
    have hlayout : l.length * c.width ≤ (layout (l.map c.part)).length := by
      rw [layout, List.length_append, length_heads, c.headSize_map]
      omega
    rw [List.append_assoc, List.length_append] at h
    have hl : l.length < 2 ^ 256 := by
      have hle := Nat.le_mul_of_pos_right l.length c.width_pos
      rw [List.length_append] at h
      omega
    have hwindow : (layout (l.map c.part) ++ rest).length < 2 ^ 256 := by omega
    have hread := c.readAll_layout hwindow [] l rfl
    rw [List.append_assoc, readWord_word hl, Option.bind_some, ← length_word l.length,
      List.drop_left, if_pos (by rw [List.length_append]; omega)]
    simpa using hread

/-- The whole of an encoded value of a dynamic type: one offset, and the value. -/
def encodeParam (a : α) : List UInt8 := layout [c.part a]

def decodeParam (data : List UInt8) : Option α := c.readAt data 0

lemma encodeParam_dynamic (hd : c.dynamic = true) (a : α) :
    c.encodeParam a = word 32 ++ c.encode a := by
  simp [encodeParam, layout, heads, tails, part, Part.tail, Part.head, hd]

lemma decodeParam_encodeParam {a : α} (h : (c.encodeParam a).length < 2 ^ 256) :
    c.decodeParam (c.encodeParam a) = some a := by
  have hread := c.readAt_layout a [] [] [] 0 rfl (by simpa [encodeParam] using h)
  simpa [encodeParam, decodeParam] using hread

end AbiCodec

end OracleServer
