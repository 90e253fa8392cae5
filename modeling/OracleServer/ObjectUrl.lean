import OracleServer.BucketReads

/-! The URL of a read says which object it is of, and on which generation it is
conditional: no two `gs://` URLs and conditions are read through one. A bucket or an object
named `.` or `..` is the exception, since the client takes it for a step in the path. -/
namespace OracleServer

lemma isUnreserved_keepable : Keepable isUnreserved := by
  have hall : ∀ n < 256, isUnreserved (UInt8.ofNat n) = true →
      UInt8.ofNat n < 128 ∧ UInt8.ofNat n ≠ 37 := by decide +kernel
  intro b hb
  have h := hall b.toNat b.toNat_lt
  rw [UInt8.ofNat_toNat] at h
  exact h hb

/-- What the storage service reads back from a path segment. -/
theorem percent_decodes (segment : String) :
    percentDecode (percent segment).toList = some segment.toUTF8.data.toList := by
  simp only [percent, String.toList_ofList]
  exact percentDecode_encode isUnreserved_keepable _

lemma percent_injective : Function.Injective percent := by
  intro s t h
  have hbytes := congrArg (fun u : String => percentDecode u.toList) h
  simp only [percent_decodes, Option.some.injEq] at hbytes
  exact String.toByteArray_inj.mp (ByteArray.ext (Array.toList_inj.mp hbytes))

/-- A separator of the URL does not occur in a segment. -/
lemma not_mem_percent {c : Char} (hpercent : c ≠ '%') (hhex : hexValue c = none)
    (hc : ∀ n < 256, isUnreserved (UInt8.ofNat n) = true → Char.ofNat n ≠ c) (segment : String) :
    c ∉ (percent segment).toList := by
  simp only [percent, String.toList_ofList]
  refine not_mem_percentEncode hpercent hhex (fun b hb => ?_) _
  refine hc b.toNat b.toNat_lt ?_
  rwa [UInt8.ofNat_toNat]

lemma splitGsUrl_ok {gsUrl bucket object : String} (h : splitGsUrl gsUrl = .ok (bucket, object)) :
    gsUrl.toList = "gs://".toList ++ (bucket.toList ++ '/' :: object.toList) ∧
      '/' ∉ bucket.toList ∧ bucket ≠ "" ∧ object ≠ "" := by
  unfold splitGsUrl at h
  dsimp only at h
  split at h
  · next rest hgs =>
    split at h
    · next c rest' hdrop =>
      split at h
      · cases h
      · next hne =>
        obtain ⟨rfl, rfl⟩ := Prod.mk.inj (Except.ok.inj h)
        simp only [Bool.or_eq_true, List.isEmpty_iff, not_or] at hne
        refine ⟨?_, ?_, ?_, ?_⟩
        · simp only [String.toList_ofList]
          rw [hgs, ← dropWhile_eq_cons hdrop]
          rfl
        · rw [String.toList_ofList]
          intro hmem
          simpa using List.mem_takeWhile_imp hmem
        · intro heq
          exact hne.1 (by simpa using congrArg String.toList heq)
        · intro heq
          exact hne.2 (by simpa using congrArg String.toList heq)
    · cases h
  · cases h

lemma splitGsUrl_injective {gsUrl gsUrl' : String} {parts : String × String}
    (h : splitGsUrl gsUrl = .ok parts) (h' : splitGsUrl gsUrl' = .ok parts) : gsUrl = gsUrl' := by
  obtain ⟨bucket, object⟩ := parts
  exact String.toList_inj.mp ((splitGsUrl_ok h).1.trans (splitGsUrl_ok h').1.symm)

/-- The end of the URL, with the condition if there is one. -/
def condition (unlessGeneration : Option Int64) : String :=
  match unlessGeneration with
  | some generation => s!"&ifGenerationNotMatch={generation}"
  | none => ""

lemma condition_some (g : Int64) :
    (condition (some g)).toList = "&ifGenerationNotMatch=".toList ++ (toString g).toList :=
  String.toList_append

lemma condition_some_ne (g : Int64) : condition (some g) ≠ condition none := by
  intro h
  have hlist := congrArg String.toList h
  rw [condition_some] at hlist
  exact absurd (List.append_eq_nil_iff.mp hlist).1 (by decide)

lemma condition_injective : Function.Injective condition := by
  intro u u' h
  match u, u' with
  | none, none => rfl
  | none, some g => exact absurd h.symm (condition_some_ne g)
  | some g, none => exact absurd h (condition_some_ne g)
  | some g, some g' =>
    have hlist := congrArg String.toList h
    rw [condition_some, condition_some] at hlist
    have hdigits : toString g.toInt = toString g'.toInt :=
      String.toList_inj.mp (List.append_cancel_left hlist)
    rw [Int64.toInt_inj.mp (Int.repr_injective hdigits)]

/-- Neither the bucket nor the object is named `.` or `..`; the storage service allows no
such name. -/
def DotFree (gsUrl : String) : Prop :=
  ∀ bucket object, splitGsUrl gsUrl = .ok (bucket, object) →
    bucket ∉ [".", ".."] ∧ object ∉ [".", ".."]

/-- Only `.` and `..` are written as dot segments: the percent sign is encoded itself. -/
lemma percent_plain {name : String} (h : name ∉ [".", ".."]) :
    isSingleDot (percent name).toList = false ∧ isDoubleDot (percent name).toList = false := by
  have hdots : ∀ text ∈ dots ++ dots.flatMap (fun first => dots.map (first ++ ·)),
      ∀ bytes, percentDecode text = some bytes →
        bytes = ".".toUTF8.data.toList ∨ bytes = "..".toUTF8.data.toList := by decide
  have hname : (percent name).toList ∉ dots ++ dots.flatMap (fun first => dots.map (first ++ ·)) := by
    intro hmem
    have hname : ∀ text : String, name.toUTF8.data.toList = text.toUTF8.data.toList →
        name = text := fun text hb =>
      String.toByteArray_inj.mp (ByteArray.ext (Array.toList_inj.mp hb))
    rcases hdots _ hmem _ (percent_decodes name) with hb | hb
    · exact h (by simp [hname _ hb])
    · exact h (by simp [hname _ hb])
  rw [List.mem_append, not_or] at hname
  exact ⟨decide_eq_false hname.1, decide_eq_false hname.2⟩

namespace Bucket

lemma objectUrl_toList (b : Bucket) (bucket object : String) (u : Option Int64) :
    (b.objectUrl bucket object u).toList = b.storageUrl.toList ++ ("/storage/v1/b/".toList ++
      ((percent bucket).toList ++ '/' :: ("o/".toList ++
        ((percent object).toList ++ '?' :: ("alt=media".toList ++ (condition u).toList))))) := by
  have hurl : b.objectUrl bucket object u =
      s!"{b.storageUrl}/storage/v1/b/{percent bucket}/o/{percent object}?alt=media" ++ condition u := by
    cases u with
    | none => exact String.append_empty.symm
    | some g => rfl
  rw [hurl]
  simp only [String.toList_append, List.append_assoc]
  rfl

lemma objectUrl_inj {b : Bucket} {bucket object bucket' object' : String} {u u' : Option Int64}
    (h : b.objectUrl bucket object u = b.objectUrl bucket' object' u') :
    bucket = bucket' ∧ object = object' ∧ u = u' := by
  have hlist := congrArg String.toList h
  simp only [objectUrl_toList] at hlist
  have hslash := not_mem_percent (c := '/') (by decide) (by decide) (by decide +kernel)
  have hquery := not_mem_percent (c := '?') (by decide) (by decide) (by decide +kernel)
  have hpath := List.append_cancel_left (List.append_cancel_left hlist)
  obtain ⟨hbucket, hrest⟩ := split_inj (hslash bucket) (hslash bucket') hpath
  obtain ⟨hobject, hend⟩ := split_inj (hquery object) (hquery object') (List.append_cancel_left hrest)
  exact ⟨percent_injective (String.toList_inj.mp hbucket),
    percent_injective (String.toList_inj.mp hobject),
    condition_injective (String.toList_inj.mp (List.append_cancel_left hend))⟩

/-- The segments of the path, as they are written. -/
def segments (bucket object : String) : List (List Char) :=
  ["storage".toList, "v1".toList, "b".toList, (percent bucket).toList, "o".toList,
    (percent object).toList]

lemma asked_objectUrl {b : Bucket} {request : HttpRequest} {bucket object : String}
    {u : Option Int64} (hurl : request.url = b.objectUrl bucket object u)
    (hbucket : bucket ∉ [".", ".."]) (hobject : object ∉ [".", ".."]) :
    b.asked request =
      (segments bucket object, '?' :: ("alt=media".toList ++ (condition u).toList)) := by
  have hslash := not_mem_percent (c := '/') (by decide) (by decide) (by decide +kernel)
  have hquery := not_mem_percent (c := '?') (by decide) (by decide) (by decide +kernel)
  have hbelow : request.url.toList.drop b.storageUrl.toList.length =
      ['/'].intercalate ([] :: segments bucket object) ++
        '?' :: ("alt=media".toList ++ (condition u).toList) := by
    rw [hurl, objectUrl_toList, List.drop_left]
    simp [segments, List.intercalate]
  have hpath : '?' ∉ ['/'].intercalate ([] :: segments bucket object) := by
    simp [segments, List.intercalate, hquery bucket, hquery object]
  have hplain : ∀ s ∈ segments bucket object, isSingleDot s = false ∧ isDoubleDot s = false := by
    intro s hs
    simp only [segments, List.mem_cons, List.not_mem_nil, or_false] at hs
    rcases hs with rfl | rfl | rfl | rfl | rfl | rfl
    · decide
    · decide
    · decide
    · exact percent_plain hbucket
    · decide
    · exact percent_plain hobject
  have hsplit : (['/'].intercalate ([] :: segments bucket object)).splitOn '/' =
      [] :: segments bucket object :=
    List.splitOn_intercalate '/'
      (by simpa [segments] using ⟨hslash bucket, hslash object⟩) (List.cons_ne_nil _ _)
  unfold asked
  dsimp only
  have hkept : ∀ c ∈ ['/'].intercalate ([] :: segments bucket object), decide (c ≠ '?') = true := by
    intro c hc
    have hne : c ≠ '?' := fun h => hpath (h ▸ hc)
    simpa using hne
  rw [hbelow, List.takeWhile_append_of_pos hkept, List.dropWhile_append_of_pos hkept]
  simp only [ne_eq, not_true, decide_false, Bool.false_eq_true, not_false_eq_true,
    List.takeWhile_cons_of_neg, List.dropWhile_cons_of_neg, List.append_nil, hsplit, List.tail_cons]
  rw [resolveDots_plain [] hplain]
  rfl

variable [Http] {b : Bucket} {cached cached' : CachedToken} {net net' : Network}
  {gsUrl gsUrl' : String} {u u' : Option Int64} {t t' : Nanos} {request request' : HttpRequest}
  {answer answer' : Except String HttpResponse}

lemma read_url (h : .object t request answer ∈ (b.read cached net gsUrl u).2.2) :
    ∃ bucket object, splitGsUrl gsUrl = .ok (bucket, object) ∧
      request.url = b.objectUrl bucket object u := by
  have hmint : ∀ {cached net c} {sent : List Exchange} {token : Except String String},
      b.accessToken cached net = (token, c, sent) → Exchange.object t request answer ∉ sent := by
    intro cached net c sent token htoken hmem
    unfold accessToken at htoken
    split at htoken
    · cases htoken
      cases hmem
    · split at htoken
      · cases htoken
        cases hmem
      · dsimp only at htoken
        split at htoken <;> cases htoken <;> simp at hmem
  unfold read at h
  split at h
  · cases h
  next bucket object hsplit =>
  refine ⟨bucket, object, hsplit, ?_⟩
  split at h
  · next htoken => exact absurd h (hmint htoken)
  · next htoken =>
    rcases List.mem_append.mp h with h | h
    · exact absurd h (hmint htoken)
    · cases List.mem_singleton.mp h
      rfl

/-- Whatever two reads of one bucket ask for, they ask for one path and query only if they are
of one object and under one condition; and the service reads both names back from the path. -/
theorem one_url_one_read (hdots : DotFree gsUrl) (hdots' : DotFree gsUrl')
    (h : .object t request answer ∈ (b.read cached net gsUrl u).2.2)
    (h' : .object t' request' answer' ∈ (b.read cached' net' gsUrl' u').2.2)
    (hurl : b.asked request = b.asked request') :
    gsUrl = gsUrl' ∧ u = u' ∧ ∃ bucket object, splitGsUrl gsUrl = .ok (bucket, object) ∧
      (b.asked request).1 = segments bucket object ∧
      percentDecode (percent bucket).toList = some bucket.toUTF8.data.toList ∧
      percentDecode (percent object).toList = some object.toUTF8.data.toList := by
  obtain ⟨bucket, object, hsplit, hrequest⟩ := read_url h
  obtain ⟨bucket', object', hsplit', hrequest'⟩ := read_url h'
  obtain ⟨hbucket, hobject⟩ := hdots bucket object hsplit
  obtain ⟨hbucket', hobject'⟩ := hdots' bucket' object' hsplit'
  rw [asked_objectUrl hrequest hbucket hobject] at hurl ⊢
  rw [asked_objectUrl hrequest' hbucket' hobject'] at hurl
  obtain ⟨hpath, hquery⟩ := Prod.mk.inj hurl
  simp only [segments, List.cons.injEq, true_and, and_true, String.toList_inj] at hpath
  obtain rfl := percent_injective hpath.1
  obtain rfl := percent_injective hpath.2
  have hcondition := List.append_cancel_left (List.cons.inj hquery).2
  exact ⟨splitGsUrl_injective hsplit hsplit',
    condition_injective (String.toList_inj.mp hcondition), bucket, object, hsplit, rfl,
    percent_decodes bucket, percent_decodes object⟩

end Bucket

namespace Sample

def conditional : HttpRequest :=
  ⟨storage.objectUrl "t0-artifacts-tokens" "production/tokens.toml" (some 7), "first"⟩

lemma tokensUrl_split : splitGsUrl tokensUrl = .ok ("t0-artifacts-tokens", "production/tokens.toml") := by
  decide +kernel

lemma tokensUrl_dotFree : DotFree tokensUrl := by
  intro bucket object hsplit
  obtain ⟨rfl, rfl⟩ := Prod.mk.inj (Except.ok.inj (hsplit.symm.trans tokensUrl_split))
  decide

theorem conditional_reads_share_their_url :
    conditional.url = "https://storage.googleapis.com/storage/v1/b/t0-artifacts-tokens/o/production%2Ftokens.toml?alt=media&ifGenerationNotMatch=7" ∧
      ∃ bucket object, splitGsUrl tokensUrl = .ok (bucket, object) ∧
        (storage.asked conditional).1 = Bucket.segments bucket object ∧
        percentDecode (percent bucket).toList = some bucket.toUTF8.data.toList ∧
        percentDecode (percent object).toList = some object.toUTF8.data.toList := by
  have hread : Exchange.object (seconds 0) conditional (.ok ⟨503, none, none, [], none⟩) ∈
      (storage.read none (readAt 0 "first" 503).1 tokensUrl (some 7)).2.2 :=
    List.mem_cons_of_mem _ (List.mem_singleton_self _)
  exact ⟨by decide +kernel,
    (Bucket.one_url_one_read tokensUrl_dotFree tokensUrl_dotFree hread hread rfl).2.2⟩

/-- With a name of dots the path loses its name: these two are asked for as one. -/
example : storage.asked ⟨storage.objectUrl "." "." none, "first"⟩ =
    storage.asked ⟨storage.objectUrl "o" ".." none, "first"⟩ := by
  decide +kernel

end Sample

end OracleServer
