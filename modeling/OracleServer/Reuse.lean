import OracleServer.PricingClient
import OracleServer.Response

/-! The pure half of `reuse.rs`: when two contexts state the same thing, and which
stored response a lookup may hand back. -/
namespace OracleServer

def publishTimeSlot : ℕ := 2
def expirySlot : ℕ := 8

/-- `zip` stops at the shorter list; the lengths are compared first. -/
def sameStatement (a b : List B256) : Bool :=
  a.length == b.length &&
    (a.zip b).zipIdx.all fun e => e.2 = publishTimeSlot || e.2 = expirySlot || e.1.1 = e.1.2

structure ReuseKey where
  schema : String
  symbol : Symbol
  direction : String
  inputToken : Address
  outputToken : Address
  deriving DecidableEq

structure Stored where
  expiryUnixSecs : UInt64
  response : OracleResponse
  generation : QuoteGeneration
  deriving DecidableEq

structure ReusedResponse where
  expiryUnixSecs : UInt64
  response : OracleResponse
  deriving DecidableEq

/-- `u64::saturating_add`. -/
def saturatingAdd (a b : UInt64) : UInt64 :=
  if a.toNat + b.toNat < 2 ^ 64 then a + b else UInt64.ofNat (2 ^ 64 - 1)

/-- The checks of `ReuseCache::lookup` that follow the two on the generation. -/
def Stored.reusable (stored : Stored) (context : List B256) (expiryUnixSecs nowSecs : UInt64)
    (minRemainingSecs : UInt64) : Option ReusedResponse :=
  if !sameStatement stored.response.context context then none
  else if stored.expiryUnixSecs > expiryUnixSecs then none
  else if stored.expiryUnixSecs < saturatingAdd nowSecs minRemainingSecs then none
  else some ⟨stored.expiryUnixSecs, stored.response⟩

theorem sameStatement_refl (c : List B256) : sameStatement c c = true := by
  simp only [sameStatement, beq_self_eq_true, Bool.true_and, List.all_eq_true]
  intro e he
  have hzip : e.1 ∈ c.zip c := (List.mem_zipIdx' he).2 ▸ List.getElem_mem _
  have heq : e.1.1 = e.1.2 := by
    rw [List.zip_eq_zipWith, List.zipWith_self] at hzip
    obtain ⟨x, -, hx⟩ := List.mem_map.mp hzip
    rw [← hx]
  simp [heq]

/-- The slots that may not move are equal. -/
theorem sameStatement_slots {a b : List B256} (h : sameStatement a b = true) :
    a.length = b.length ∧ ∀ i, i ≠ publishTimeSlot → i ≠ expirySlot → a[i]? = b[i]? := by
  simp only [sameStatement, Bool.and_eq_true, beq_iff_eq] at h
  obtain ⟨hlen, hall⟩ := h
  refine ⟨hlen, fun i hi hj => ?_⟩
  by_cases hlt : i < a.length
  · have hlt' : i < b.length := hlen ▸ hlt
    have hmem : ((a[i], b[i]), i) ∈ (a.zip b).zipIdx := by
      rw [List.mem_iff_getElem?]
      refine ⟨i, ?_⟩
      rw [List.getElem?_zipIdx, List.getElem?_eq_getElem (by simp [hlt, hlt'])]
      simp
    have hslot := List.all_eq_true.mp hall _ hmem
    have heq : a[i] = b[i] := by simpa [hi, hj] using hslot
    rw [List.getElem?_eq_getElem hlt, List.getElem?_eq_getElem hlt', heq]
  · rw [List.getElem?_eq_none (by omega), List.getElem?_eq_none (by omega)]

theorem reusable_some {stored : Stored} {context : List B256} {expiry now margin : UInt64}
    {r : ReusedResponse} (h : stored.reusable context expiry now margin = some r) :
    r = ⟨stored.expiryUnixSecs, stored.response⟩ ∧
      sameStatement stored.response.context context = true ∧ stored.expiryUnixSecs ≤ expiry ∧
      saturatingAdd now margin ≤ stored.expiryUnixSecs := by
  unfold Stored.reusable at h
  split at h
  · cases h
  next hsame =>
  split at h
  · cases h
  next hle =>
  split at h
  · cases h
  next hmargin =>
  refine ⟨(Option.some.inj h).symm, by simpa using hsame, UInt64.not_lt.mp hle,
    UInt64.not_lt.mp hmargin⟩

end OracleServer
