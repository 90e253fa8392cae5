import OracleServer.Lib.Result
import OracleServer.Wire

/-! The market session of `session.rs`, signed into context slots 3 to 5. -/
namespace OracleServer

/-- `u64::try_from` of a signed value. -/
def u64TryFrom (x : ℤ) : Option UInt64 :=
  if 0 ≤ x ∧ x < 2 ^ 64 then some (UInt64.ofNat x.toNat) else none

theorem u64TryFrom_some {x : ℤ} {n : UInt64} (h : u64TryFrom x = some n) : (n.toNat : ℤ) = x := by
  unfold u64TryFrom at h
  split at h
  · next hx =>
    obtain rfl := Option.some.inj h
    have hsize : x.toNat < UInt64.size := by
      change x.toNat < 18446744073709551616
      omega
    rw [UInt64.toNat_ofNat_of_lt' hsize]
    omega
  · cases h

theorem u64TryFrom_iff {x : ℤ} {n : UInt64} : u64TryFrom x = some n ↔ x = n.toNat := by
  constructor
  · intro h
    exact (u64TryFrom_some h).symm
  · rintro rfl
    have hlt := n.toNat_lt
    rw [u64TryFrom, if_pos (by omega), Int.toNat_natCast, UInt64.ofNat_toNat]

/-- The session slots of one signed context, in whole Unix seconds. -/
structure SignedSession where
  tag : SessionTag
  start : UInt64
  stop : UInt64
  deriving DecidableEq

inductive SessionRefusal
  | missing
  | invalid (why : String)
  deriving DecidableEq

namespace SignedSession

/-- `start_ms <= read_at`, and the end bound of the tag: exclusive for an open session,
inclusive for a closed one. -/
def ordered (session : QuoteSession) (readAt : Int64) : Bool :=
  session.startUnixMs ≤ readAt &&
    match session.tag with
    | .closed => readAt ≤ session.endUnixMs
    | .premarket | .rth | .afterhours => readAt < session.endUnixMs

def seconds (tag : SessionTag) (ms : Int64) : Except SessionRefusal UInt64 :=
  match u64TryFrom (ms.toInt / 1000) with
  | some s => .ok s
  | none => .error (.invalid s!"{tag.asStr} session bound {ms} is before 1970")

def fromQuote (quote : Quote) : Except SessionRefusal SignedSession :=
  match quote.session with
  | none => .error .missing
  | some session =>
    if ordered session quote.sourceTsUnixMs then do
      let start ← seconds session.tag session.startUnixMs
      let stop ← seconds session.tag session.endUnixMs
      pure ⟨session.tag, start, stop⟩
    else .error (.invalid
      s!"{session.tag.asStr} session [{session.startUnixMs}, {session.endUnixMs}) does not hold source_ts {quote.sourceTsUnixMs}")

theorem seconds_ok {tag : SessionTag} {ms : Int64} {n : UInt64} (h : seconds tag ms = .ok n) :
    (n.toNat : ℤ) = ms.toInt / 1000 := by
  unfold seconds at h
  split at h
  · next s hs =>
    obtain rfl := Except.ok.inj h
    exact u64TryFrom_some hs
  · cases h

/-- Everything a signed session says about its quote. -/
theorem fromQuote_ok {quote : Quote} {s : SignedSession} (h : fromQuote quote = .ok s) :
    ∃ session, quote.session = some session ∧ s.tag = session.tag ∧
      (s.start.toNat : ℤ) = session.startUnixMs.toInt / 1000 ∧
      (s.stop.toNat : ℤ) = session.endUnixMs.toInt / 1000 ∧
      session.startUnixMs.toInt ≤ quote.sourceTsUnixMs.toInt ∧
      ordered session quote.sourceTsUnixMs = true := by
  unfold fromQuote at h
  split at h
  · cases h
  · next session hs =>
    split at h
    · next ho =>
      obtain ⟨start, hstart, h⟩ := except_bind_ok h
      obtain ⟨stop, hstop, h⟩ := except_bind_ok h
      obtain rfl := Except.ok.inj h
      have hle : session.startUnixMs ≤ quote.sourceTsUnixMs := by
        simp only [ordered, Bool.and_eq_true, decide_eq_true_eq] at ho
        exact ho.1
      exact ⟨session, hs, rfl, seconds_ok hstart, seconds_ok hstop,
        Int64.le_iff_toInt_le.mp hle, ho⟩
    · cases h

/-- A quote that is signed was read at or after 1970: the session check is what keeps a
negative `source_ts` from being truncated to zero. -/
theorem fromQuote_nonneg {quote : Quote} {s : SignedSession} (h : fromQuote quote = .ok s) :
    0 ≤ quote.sourceTsUnixMs.toInt := by
  obtain ⟨session, -, -, hstart, -, hle, -⟩ := fromQuote_ok h
  omega

end SignedSession

/-- Rain `IntOrAString` V3: the ASCII name right before byte 31, which is `0xe0 | len`. -/
def tagBytes32V3 (tag : SessionTag) : B256 :=
  let bytes := tag.asStr.toList.map fun c => c.toNat.toUInt8
  let len := bytes.length
  Vector.ofFn fun i : Fin 32 =>
    if i.val = 31 then 0xe0 ||| len.toUInt8
    else if 31 - len ≤ i.val then bytes.getD (i.val - (31 - len)) 0
    else 0

example : (tagBytes32V3 .rth).toList =
    List.replicate 28 0 ++ [0x72, 0x74, 0x68, 0xe3] := by decide

end OracleServer
