import OracleServer.ObjectUrl

/-! Boot and the reload loop over HTTP. Boot reads until it has a copy or has run out of
attempts; against a storage service that answers for its latest generation, each turn of
the loop is one poll, so the instance follows the bucket as the loop over polls does. -/
namespace OracleServer

namespace Bucket
variable [Http] {b : Bucket} {source : RegistrySource} {cached : CachedToken} {net : Network}

section Boot
variable (b source) (nets : ℕ → Network)

/-- The cached token after `j` reads of boot, the first of them at `nets attempt`. -/
def cachedAfter (attempt : ℕ) (cached : CachedToken) : ℕ → CachedToken
  | 0 => cached
  | j + 1 => (b.read (cachedAfter attempt cached j) (nets (attempt + j)) source.url none).2.1

/-- What read `j` of boot comes to. -/
def readOf (attempt : ℕ) (cached : CachedToken) (j : ℕ) : Except String Read :=
  (b.read (b.cachedAfter source nets attempt cached j) (nets (attempt + j)) source.url none).1

variable {b source nets}

lemma cachedAfter_succ (attempt : ℕ) (cached : CachedToken) (j : ℕ) :
    b.cachedAfter source nets (attempt + 1)
        (b.read cached (nets attempt) source.url none).2.1 j =
      b.cachedAfter source nets attempt cached (j + 1) := by
  induction j with
  | zero => rfl
  | succ j ih =>
    rw [cachedAfter, ih]
    simp only [cachedAfter, Nat.add_assoc, Nat.add_comm 1 j]

lemma readOf_succ (attempt : ℕ) (cached : CachedToken) (j : ℕ) :
    b.readOf source nets (attempt + 1) (b.read cached (nets attempt) source.url none).2.1 j =
      b.readOf source nets attempt cached (j + 1) := by
  unfold readOf
  rw [cachedAfter_succ, Nat.add_assoc, Nat.add_comm 1 j]

/-- A read that is not conditional is not answered as one. -/
lemma read_none_ne_unchanged (cached : CachedToken) (net : Network) (gsUrl : String) :
    (b.read cached net gsUrl none).1 ≠ .ok .unchanged := by
  unfold read
  split
  · exact nofun
  split
  · exact nofun
  · dsimp only
    unfold answered
    split
    · exact nofun
    · next r hr =>
      rw [if_neg (by simp)]
      split
      · exact nofun
      · dsimp only [copyOf]
        split
        · exact nofun
        · split
          · exact nofun
          · intro h
            obtain ⟨bytes, -, hcopy⟩ := except_map_ok h
            cases hcopy

variable (b source nets) in
/-- The first read that is no error, if one comes within the retries. -/
theorem bootReads_cases (retries attempt : ℕ) (backoff : Nanos) (cached : CachedToken) :
    ∃ k ≤ retries, (∀ j < k, ∃ e, b.readOf source nets attempt cached j = .error e) ∧
      (b.bootReads source nets retries attempt backoff cached).slept =
        (List.range k).map (fun j => backoff * 2 ^ j) ∧
      ((∃ bytes generation, b.readOf source nets attempt cached k = .ok (.copy bytes generation) ∧
          (b.bootReads source nets retries attempt backoff cached).result = .ok (bytes, generation)) ∨
        ∃ e, b.readOf source nets attempt cached k = .error e ∧ k = retries ∧
          (b.bootReads source nets retries attempt backoff cached).result =
            .error s!"no live token file reachable at {source.url} after {attempt + k} tries; refusing to start: {e}") := by
  induction retries generalizing attempt backoff cached with
  | zero =>
    refine ⟨0, le_rfl, fun j hj => by simp at hj, ?_⟩
    rw [bootReads]
    split
    · next bytes generation cached' sent hread =>
      exact ⟨rfl, .inl ⟨bytes, generation, by simp [readOf, cachedAfter, hread], rfl⟩⟩
    · next cached' sent hread =>
      exact absurd (by rw [hread]) (read_none_ne_unchanged cached (nets attempt) source.url)
    · next e cached' sent hread =>
      exact ⟨rfl, .inr ⟨e, by simp [readOf, cachedAfter, hread], rfl, rfl⟩⟩
  | succ retries ih =>
    rw [bootReads]
    split
    · next bytes generation cached' sent hread =>
      exact ⟨0, Nat.zero_le _, fun j hj => by simp at hj, rfl,
        .inl ⟨bytes, generation, by simp [readOf, cachedAfter, hread], rfl⟩⟩
    · next cached' sent hread =>
      exact absurd (by rw [hread]) (read_none_ne_unchanged cached (nets attempt) source.url)
    · next e cached' sent hread =>
      have hcached : (b.read cached (nets attempt) source.url none).2.1 = cached' := by rw [hread]
      obtain ⟨k, hk, hfailed, hslept, hend⟩ := ih (attempt + 1) (backoff * 2) cached'
      have hshift : ∀ j, b.readOf source nets (attempt + 1) cached' j =
          b.readOf source nets attempt cached (j + 1) := fun j => hcached ▸ readOf_succ attempt cached j
      refine ⟨k + 1, Nat.succ_le_succ hk, fun j hj => ?_, ?_, ?_⟩
      · cases j with
        | zero => exact ⟨e, by simp [readOf, cachedAfter, hread]⟩
        | succ j =>
          rw [← hshift]
          exact hfailed j (Nat.lt_of_succ_lt_succ hj)
      · dsimp only
        rw [hslept, List.range_succ_eq_map, List.map_cons, List.map_map]
        simp [Function.comp_def, pow_succ', Nat.mul_assoc]
      · rw [← hshift]
        rcases hend with ⟨bytes, generation, hcopy, hresult⟩ | ⟨e', herr, hlast, hresult⟩
        · exact .inl ⟨bytes, generation, hcopy, hresult⟩
        · refine .inr ⟨e', herr, by rw [hlast], ?_⟩
          dsimp only
          rw [hresult, Nat.add_assoc, Nat.add_comm 1 k]

variable [Toml] [Alloy] [Unicode] (b source nets)

/-- How boot ends on its read `k`. -/
inductive BootEnds (static : Table) (retry : Retry) (k : ℕ) :
    Except String (Config × TokenSet) → Prop
  | started {bytes : ByteArray} {g : Int64} {p : Projection} {c : Config} {r : TokenRegistry}
    (hread : b.readOf source nets 1 none k = .ok (.copy bytes g))
    (hcandidate : TokenFile.candidate static bytes = .ok (p, c, r)) :
    BootEnds static retry k (.ok (c, ⟨r, c.symbols, some p, some g⟩))
  | invalid {bytes : ByteArray} {g : Int64} {e : String}
    (hread : b.readOf source nets 1 none k = .ok (.copy bytes g))
    (hcandidate : TokenFile.candidate static bytes = .error e) : BootEnds static retry k
      (.error s!"the live token file {source.url} (generation {g}) fails validation; refusing to start: {e}")
  | unreachable {e : String} (hread : b.readOf source nets 1 none k = .error e)
    (hlast : k + 1 = max retry.attempts 1) : BootEnds static retry k
      (.error s!"no live token file reachable at {source.url} after {1 + k} tries; refusing to start: {e}")

/-- Boot ends on the first read that is no failure, and sleeps twice as long after each. -/
theorem boot_ends (static : Table) (retry : Retry) :
    ∃ k < max retry.attempts 1, (∀ j < k, ∃ e, b.readOf source nets 1 none j = .error e) ∧
      (b.boot source static retry nets).2.slept =
        (List.range k).map (fun j => retry.firstBackoff * 2 ^ j) ∧
      BootEnds b source nets static retry k (b.boot source static retry nets).1 := by
  obtain ⟨k, hk, hfailed, hslept, hend⟩ := bootReads_cases b source nets
    (retry.attempts - 1) 1 retry.firstBackoff none
  refine ⟨k, by omega, hfailed, ?_, ?_⟩
  · unfold boot
    dsimp only
    split
    · exact hslept
    · split <;> exact hslept
  · unfold boot
    rcases hend with ⟨bytes, g, hcopy, hresult⟩ | ⟨e, herr, hlast, hresult⟩
    · dsimp only
      rw [hresult]
      dsimp only
      split
      · next e hcandidate => exact .invalid hcopy hcandidate
      · next p c r hcandidate => exact .started hcopy hcandidate
    · dsimp only
      rw [hresult]
      exact .unreachable herr (by omega)

variable {b source nets}

/-- Boot starts exactly on the first copy it reads, if that one is valid: it reads at most
as often as it has attempts, sleeps once after each failure it retries, the first time for
its first backoff and then for twice as long, and never falls back to another copy. -/
theorem boot_starts_on_the_first_copy (static : Table) (retry : Retry) (config : Config)
    (set : TokenSet) :
    ((b.boot source static retry nets).1 = .ok (config, set) ↔ ∃ k < max retry.attempts 1,
      (∀ j < k, ∃ e, b.readOf source nets 1 none j = .error e) ∧ ∃ bytes g p r,
        b.readOf source nets 1 none k = .ok (.copy bytes g) ∧
        TokenFile.candidate static bytes = .ok (p, config, r) ∧
        set = ⟨r, config.symbols, some p, some g⟩) ∧
      ∃ k < max retry.attempts 1, (∀ j < k, ∃ e, b.readOf source nets 1 none j = .error e) ∧
        (k + 1 = max retry.attempts 1 ∨
          ∃ bytes g, b.readOf source nets 1 none k = .ok (.copy bytes g)) ∧
        (b.boot source static retry nets).2.slept =
          (List.range k).map (fun j => retry.firstBackoff * 2 ^ j) := by
  obtain ⟨k, hk, hfailed, hslept, hends⟩ := boot_ends b source nets static retry
  have hlast : k + 1 = max retry.attempts 1 ∨
      ∃ bytes g, b.readOf source nets 1 none k = .ok (.copy bytes g) := by
    generalize (b.boot source static retry nets).1 = out at hends
    cases hends with
    | started hread _ => exact .inr ⟨_, _, hread⟩
    | invalid hread _ => exact .inr ⟨_, _, hread⟩
    | unreachable _ hlast => exact .inl hlast
  refine ⟨⟨fun hboot => ?_, ?_⟩, k, hk, hfailed, hlast, hslept⟩
  · rw [hboot] at hends
    cases hends with
    | started hread hcandidate => exact ⟨k, hk, hfailed, _, _, _, _, hread, hcandidate, rfl⟩
  · rintro ⟨k', hk', hfailed', bytes, g, p, r, hread', hcandidate', rfl⟩
    generalize hout : (b.boot source static retry nets).1 = out at hends
    rcases lt_trichotomy k k' with hlt | rfl | hlt
    · -- a boot that ended on a failure had no attempt left
      obtain ⟨e, he⟩ := hfailed' k hlt
      cases hends with
      | started hread _ => exact nomatch hread.symm.trans he
      | invalid hread _ => exact nomatch hread.symm.trans he
      | unreachable _ hlast => omega
    · cases hends with
      | started hread hcandidate =>
        obtain ⟨rfl, rfl⟩ := Read.copy.inj (Except.ok.inj (hread.symm.trans hread'))
        obtain ⟨rfl, rfl, rfl⟩ : _ = p ∧ _ = config ∧ _ = r := by
          simpa using Except.ok.inj (hcandidate.symm.trans hcandidate')
        rfl
      | invalid hread hcandidate =>
        obtain ⟨rfl, rfl⟩ := Read.copy.inj (Except.ok.inj (hread.symm.trans hread'))
        exact nomatch hcandidate.symm.trans hcandidate'
      | unreachable hread _ => exact nomatch hread.symm.trans hread'
    · obtain ⟨e, he⟩ := hfailed k' hlt
      exact nomatch hread'.symm.trans he

end Boot

/-- The storage service answers for its latest generation: a 304 only when the read was
conditional on that one, and a success only when it was not, with the generation and, if the
body is whole, the bytes of the latest copy. -/
structure Serves (b : Bucket) (gsUrl : String) (bytesOf : Int64 → ByteArray) (latest : Int64)
    (net : Network) : Prop where
  notModified : ∀ bucket object g token r, splitGsUrl gsUrl = .ok (bucket, object) →
    net.object ⟨b.objectUrl bucket object (some g), token⟩ = .ok r → r.status = 304 → g = latest
  modified : ∀ bucket object g token r, splitGsUrl gsUrl = .ok (bucket, object) →
    net.object ⟨b.objectUrl bucket object (some g), token⟩ = .ok r → r.isSuccess = true → g ≠ latest
  generation : ∀ request r g, net.object request = .ok r → r.isSuccess = true →
    generationOf r.generation = some g → g = latest
  body : ∀ request r, net.object request = .ok r → r.isSuccess = true → r.broken = none →
    r.chunks.foldl (· ++ ·) .empty = bytesOf latest

section Served
variable {bytesOf : Int64 → ByteArray} {latest : Int64} {gsUrl : String}

omit [Http] in
lemma collect_ok {broken : Option String} {acc bytes : ByteArray} {chunks : List ByteArray}
    (h : collect gsUrl broken acc chunks = .ok bytes) :
    broken = none ∧ bytes = chunks.foldl (· ++ ·) acc := by
  induction chunks generalizing acc with
  | nil =>
    unfold collect at h
    split at h
    · cases h
    · exact ⟨rfl, (Except.ok.inj h).symm⟩
  | cons chunk chunks ih =>
    unfold collect at h
    split at h
    · cases h
    · exact ih h

omit [Http] in
lemma copyOf_ok {r : HttpResponse} {read : Read} (h : copyOf gsUrl r = .ok read) :
    ∃ g, generationOf r.generation = some g ∧ r.broken = none ∧
      read = .copy (r.chunks.foldl (· ++ ·) .empty) g := by
  unfold copyOf at h
  split at h
  · cases h
  · next g hg =>
    split at h
    · cases h
    · obtain ⟨bytes, hbytes, rfl⟩ := except_map_ok h
      obtain ⟨hbroken, rfl⟩ := collect_ok hbytes
      exact ⟨g, hg, hbroken, rfl⟩

/-- What a read of such a service says of its latest generation. -/
theorem read_served (h : Serves b gsUrl bytesOf latest net) {unlessGeneration : Option Int64}
    {read : Read} (hread : (b.read cached net gsUrl unlessGeneration).1 = .ok read) :
    (read = .unchanged ∧ unlessGeneration = some latest) ∨
      (read = .copy (bytesOf latest) latest ∧ unlessGeneration ≠ some latest) := by
  unfold Bucket.read at hread
  split at hread
  · cases hread
  next bucket object hsplit =>
  split at hread
  · cases hread
  next token cached' sent htoken =>
  dsimp only [answered] at hread
  split at hread
  · cases hread
  next r hr =>
  split at hread
  · next hunchanged =>
    obtain ⟨hsome, hstatus⟩ := Bool.and_eq_true_iff.mp hunchanged
    obtain ⟨g, rfl⟩ := Option.isSome_iff_exists.mp hsome
    obtain rfl := Except.ok.inj hread
    rw [h.notModified bucket object g token r hsplit hr (of_decide_eq_true hstatus)]
    exact .inl ⟨rfl, rfl⟩
  · split at hread
    · cases hread
    · next hsuccess =>
      have hsuccess : r.isSuccess = true := by simpa using hsuccess
      obtain ⟨g, hg, hbroken, rfl⟩ := copyOf_ok hread
      rw [h.generation _ r g hr hsuccess hg, h.body _ r hr hsuccess hbroken]
      refine .inr ⟨rfl, ?_⟩
      rintro rfl
      exact h.modified bucket object latest token r hsplit hr hsuccess rfl

variable [Toml] [Alloy] [Unicode] {static : Table} {bootConfig : Config} {s : Running}

/-- The answer of the bucket that a turn finds. -/
def found (b : Bucket) (source : RegistrySource) (bytesOf : Int64 → ByteArray) (latest : Int64)
    (s : Running) (cached : CachedToken) (net : Network) : Option (Int64 × ByteArray) :=
  match (b.read cached net source.url (s.rejected.or s.tokens.generation)).1 with
  | .ok _ => some (latest, bytesOf latest)
  | .error _ => none

/-- A turn over HTTP is a poll. -/
theorem turn_refines (h : Serves b source.url bytesOf latest net) :
    (b.turn source static bootConfig s cached net).1 =
      Reload.poll static bootConfig s.tokens s.rejected
        (found b source bytesOf latest s cached net) := by
  unfold turn found Reload.poll
  split
  · next e cached' sent hread => simp [hread]
  · next cached' sent hread =>
    have hsame := read_served h (by rw [hread])
    rcases hsame with ⟨-, hunless⟩ | ⟨hcopy, -⟩
    · simp only [hread]
      simp [hunless]
    · cases hcopy
  · next bytes g cached' sent hread =>
    have hcopy := read_served h (by rw [hread])
    rcases hcopy with ⟨hunchanged, -⟩ | ⟨hcopy, hunless⟩
    · cases hunchanged
    · obtain ⟨rfl, rfl⟩ := Read.copy.inj hcopy
      simp [hread, hunless]

end Served

end Bucket

/-- An instance between two turns of its reload loop. -/
structure Instance where
  running : Running
  cached : CachedToken

namespace Bucket
variable [Http] [Toml] [Alloy] [Unicode] (b : Bucket) (source : RegistrySource) (static : Table)

/-- What boot leaves: nothing cached, nothing refused. -/
def started (set : TokenSet) (reads : BootReads) : Instance :=
  ⟨⟨set, ⟨.empty, set.symbols⟩, [], none⟩, reads.cached⟩

def turned (bootConfig : Config) (i : Instance) (net : Network) : Instance :=
  let (writes, cached) := b.turn source static bootConfig i.running i.cached net
  ⟨writes.foldl ReloadStep.perform i.running, cached⟩

/-- What one more turn does to an instance, against a service that serves `latest`: nothing
if the read fails; else it runs what a restart on the latest copy would run, or refuses the
copy if a restart would. -/
structure FollowsBucket (bytesOf : Int64 → ByteArray) (bootConfig : Config) (i : Instance) : Prop where
  follows : i.running.Follows static bytesOf
  unread : ∀ latest net e, b.Serves source.url bytesOf latest net →
    (b.read i.cached net source.url (i.running.rejected.or i.running.tokens.generation)).1 = .error e →
    (b.turned source static bootConfig i net).running = i.running
  accepted : ∀ latest net read p c r, b.Serves source.url bytesOf latest net →
    (b.read i.cached net source.url (i.running.rejected.or i.running.tokens.generation)).1 = .ok read →
    TokenFile.candidate static (bytesOf latest) = .ok (p, c, r) →
    RestartsAs static bytesOf (b.turned source static bootConfig i net).running.tokens latest ∧
      (b.turned source static bootConfig i net).running.invalid = false
  refused : ∀ latest net read e, b.Serves source.url bytesOf latest net →
    (b.read i.cached net source.url (i.running.rejected.or i.running.tokens.generation)).1 = .ok read →
    TokenFile.candidate static (bytesOf latest) = .error e →
    (b.turned source static bootConfig i net).running = { i.running with rejected := some latest }

variable {b source static} {bytesOf : Int64 → ByteArray} {bootConfig : Config} {i : Instance}
  {latest : Int64} {net : Network}

lemma turned_running (h : b.Serves source.url bytesOf latest net) :
    (b.turned source static bootConfig i net).running = i.running.pollOnce static bootConfig bytesOf
      ((found b source bytesOf latest i.running i.cached net).map Prod.fst) := by
  unfold turned Running.pollOnce
  dsimp only
  rw [turn_refines h]
  unfold found
  split <;> rfl

omit [Toml] [Alloy] [Unicode] in
lemma found_ok {read : Read}
    (h : (b.read i.cached net source.url (i.running.rejected.or i.running.tokens.generation)).1 = .ok read) :
    found b source bytesOf latest i.running i.cached net = some (latest, bytesOf latest) := by
  simp [found, h]

variable [LawfulSerde] [LawfulAlloy] {bootBytes : ByteArray} {p₀ : Projection} {r₀ : TokenRegistry}

lemma followsBucket_of_follows (hboot : TokenFile.candidate static bootBytes = .ok (p₀, bootConfig, r₀))
    (hi : i.running.Follows static bytesOf) : b.FollowsBucket source static bytesOf bootConfig i where
  follows := hi
  unread latest net e hserves hread := by
    rw [turned_running hserves]
    simp only [found, hread]
    rfl
  accepted latest net read p c r hserves hread hcandidate := by
    rw [turned_running hserves, found_ok hread]
    obtain ⟨-, hrestart, hrejected⟩ := pollOnce_accepted hboot hi hcandidate
    exact ⟨hrestart, by simp [Running.invalid, hrejected]⟩
  refused latest net read e hserves hread hcandidate := by
    rw [turned_running hserves, found_ok hread]
    exact pollOnce_refused hi hcandidate

omit [Http] in
/-- A poll keeps the generation the instance runs, or takes it to the one that it found. -/
lemma pollOnce_restarts {g : Int64}
    (hboot : TokenFile.candidate static bootBytes = .ok (p₀, bootConfig, r₀))
    {s : Running} (hs : s.Follows static bytesOf) (hg : RestartsAs static bytesOf s.tokens g)
    (latest : Int64) :
    RestartsAs static bytesOf (s.pollOnce static bootConfig bytesOf (some latest)).tokens g ∨
      RestartsAs static bytesOf (s.pollOnce static bootConfig bytesOf (some latest)).tokens
        latest := by
  cases hc : TokenFile.candidate static (bytesOf latest) with
  | ok built => exact .inr (pollOnce_accepted hboot hs hc).2.1
  | error e =>
    rw [pollOnce_refused hs hc]
    exact .inl hg

/-- An instance follows the bucket on a generation that was the latest at some turn, or that
it ran before. -/
lemma turns_follow (hboot : TokenFile.candidate static bootBytes = .ok (p₀, bootConfig, r₀))
    (hi : i.running.Follows static bytesOf) {g : Int64}
    (hg : RestartsAs static bytesOf i.running.tokens g) {turns : List (Int64 × Network)}
    (hserves : ∀ t ∈ turns, b.Serves source.url bytesOf t.1 t.2) :
    ((turns.map Prod.snd).foldl (b.turned source static bootConfig) i).running.Follows static
        bytesOf ∧
      ∃ g', (g' = g ∨ g' ∈ turns.map Prod.fst) ∧ RestartsAs static bytesOf
        ((turns.map Prod.snd).foldl (b.turned source static bootConfig) i).running.tokens g' := by
  induction turns generalizing i g with
  | nil => exact ⟨hi, g, .inl rfl, hg⟩
  | cons t turns ih =>
    have hrest : ∀ t' ∈ turns, b.Serves source.url bytesOf t'.1 t'.2 :=
      fun t' ht' => hserves t' (List.mem_cons_of_mem _ ht')
    have hturned : (b.turned source static bootConfig i t.2).running =
        i.running.pollOnce static bootConfig bytesOf
          ((found b source bytesOf t.1 i.running i.cached t.2).map Prod.fst) :=
      turned_running (hserves t List.mem_cons_self)
    have hfollows : (b.turned source static bootConfig i t.2).running.Follows static bytesOf := by
      rw [hturned]
      exact pollOnce_follows hboot hi _
    have hnext : ∃ g₁, (g₁ = g ∨ g₁ = t.1) ∧
        RestartsAs static bytesOf (b.turned source static bootConfig i t.2).running.tokens g₁ := by
      rw [hturned]
      unfold found
      split
      · rcases pollOnce_restarts hboot hi hg t.1 with h | h
        · exact ⟨g, .inl rfl, h⟩
        · exact ⟨t.1, .inr rfl, h⟩
      · exact ⟨g, .inl rfl, hg⟩
    obtain ⟨g₁, hseen₁, hg₁⟩ := hnext
    obtain ⟨hlast, g', hseen, hg'⟩ := ih hfollows hg₁ hrest
    refine ⟨hlast, g', ?_, hg'⟩
    rw [List.map_cons, List.mem_cons]
    rcases hseen with rfl | hmem
    · exact hseen₁.imp_right .inl
    · exact .inr (.inr hmem)

/-- From boot and through any turns of the loop, over a service that serves its latest
generation at each read, an instance follows the bucket: it runs what a restart would run on a
generation that was the latest at some read. -/
theorem instance_follows_bucket {retry : Retry} {nets : ℕ → Network} {first : ℕ → Int64}
    (hfirst : ∀ j, b.Serves source.url bytesOf (first j) (nets j)) {config : Config} {set : TokenSet}
    (hboot : (b.boot source static retry nets).1 = .ok (config, set)) {turns : List (Int64 × Network)}
    (hserves : ∀ t ∈ turns, b.Serves source.url bytesOf t.1 t.2) :
    (∃ j ∈ Finset.Icc 1 (max retry.attempts 1), RestartsAs static bytesOf set (first j) ∧
      ∃ g, (g = first j ∨ g ∈ turns.map Prod.fst) ∧ RestartsAs static bytesOf
        ((turns.map Prod.snd).foldl (b.turned source static config)
          (started set (b.boot source static retry nets).2)).running.tokens g) ∧
      b.FollowsBucket source static bytesOf config ((turns.map Prod.snd).foldl
        (b.turned source static config) (started set (b.boot source static retry nets).2)) := by
  obtain ⟨k, hk, -, -, hends⟩ := boot_ends b source nets static retry
  rw [hboot] at hends
  cases hends with
  | @started bytes g p c r hread hcandidate =>
    obtain ⟨rfl, rfl⟩ : g = first (1 + k) ∧ bytes = bytesOf (first (1 + k)) := by
      rcases read_served (hfirst (1 + k)) hread with ⟨hunchanged, -⟩ | ⟨hcopy, -⟩
      · cases hunchanged
      · obtain ⟨rfl, rfl⟩ := Read.copy.inj hcopy
        exact ⟨rfl, rfl⟩
    have hrestart : RestartsAs static bytesOf ⟨r, config.symbols, some p, some (first (1 + k))⟩
        (first (1 + k)) := ⟨rfl, p, config, r, hcandidate, fun _ _ => rfl, rfl⟩
    obtain ⟨hfollows, hseen⟩ := turns_follow hcandidate (i := started _ _)
      ⟨⟨_, p, config, r, hcandidate, rfl, rfl, rfl⟩, ⟨_, hrestart⟩, fun g hg => by cases hg⟩
      hrestart hserves
    refine ⟨⟨1 + k, Finset.mem_Icc.mpr ⟨by omega, by omega⟩, hrestart, hseen⟩,
      followsBucket_of_follows hcandidate hfollows⟩

end Bucket

/-! A bucket that serves the sample copies to an instance that boots on the first, while its
first read fails. -/
namespace Sample

def tokensSource : RegistrySource := ⟨tokensUrl, 10⟩

def header (g : Int64) : List UInt8 := (toString g).toUTF8.data.toList

/-- The service while generation `g` is the latest. -/
def serving (g : Int64) : Network where
  checkedAt := 0
  mintedAt := 0
  metadata := .ok (.ok ("first", 3600))
  object request :=
    if request.url = storage.objectUrl "t0-artifacts-tokens" "production/tokens.toml" (some g) then
      .ok ⟨304, none, none, [], none⟩
    else .ok ⟨200, some (header g), none, [bytesOf g], none⟩

def failing : Network := ⟨0, 0, .error "connection refused", fun _ => .error "timed out"⟩

lemma failing_serves (g : Int64) : storage.Serves tokensUrl bytesOf g failing :=
  ⟨fun _ _ _ _ _ _ h => (nomatch h), fun _ _ _ _ _ _ h => (nomatch h), fun _ _ _ h => (nomatch h),
    fun _ _ h => (nomatch h)⟩

lemma serving_serves {g : Int64} (hg : generationOf (some (header g)) = some g) :
    storage.Serves tokensUrl bytesOf g (serving g) where
  notModified bucket object g' token r hsplit hr hstatus := by
    obtain ⟨rfl, rfl⟩ := Prod.mk.inj (Except.ok.inj (hsplit.symm.trans tokensUrl_split))
    dsimp only [serving] at hr
    split at hr
    · next hurl => exact Option.some.inj (Bucket.objectUrl_inj hurl).2.2
    · obtain rfl := Except.ok.inj hr
      cases hstatus
  modified bucket object g' token r hsplit hr hsuccess := by
    obtain ⟨rfl, rfl⟩ := Prod.mk.inj (Except.ok.inj (hsplit.symm.trans tokensUrl_split))
    rintro rfl
    dsimp only [serving] at hr
    rw [if_pos rfl] at hr
    obtain rfl := Except.ok.inj hr
    cases hsuccess
  generation request r g' hr hsuccess hgeneration := by
    dsimp only [serving] at hr
    split at hr
    · obtain rfl := Except.ok.inj hr
      cases hsuccess
    · obtain rfl := Except.ok.inj hr
      exact Option.some.inj (hgeneration.symm.trans hg)
  body request r hr hsuccess hbroken := by
    dsimp only [serving] at hr
    split at hr
    · obtain rfl := Except.ok.inj hr
      cases hsuccess
    · obtain rfl := Except.ok.inj hr
      exact ByteArray.empty_append

def firstReads (attempt : ℕ) : Network := if attempt = 1 then failing else serving 1

/-- The second copy, a check that fails, and the third, which is refused. -/
def checks : List (Int64 × Network) := [(2, serving 2), (2, failing), (3, serving 3), (3, serving 3)]

theorem second_read_starts : ∃ config set,
    (storage.boot tokensSource staticConfig .boot firstReads).1 = .ok (config, set) ∧
      (storage.boot tokensSource staticConfig .boot firstReads).2.slept = [seconds 4] ∧
      ∃ bytes g p r, storage.readOf tokensSource firstReads 1 none 1 = .ok (.copy bytes g) ∧
        TokenFile.candidate staticConfig bytes = .ok (p, config, r) ∧
        set = ⟨r, config.symbols, some p, some g⟩ := by
  have hstarts : (storage.boot tokensSource staticConfig .boot firstReads).1.isOk = true := by
    decide +kernel
  have hslept : (storage.boot tokensSource staticConfig .boot firstReads).2.slept = [seconds 4] := by
    decide +kernel
  cases hboot : (storage.boot tokensSource staticConfig .boot firstReads).1 with
  | error e =>
    rw [hboot] at hstarts
    cases hstarts
  | ok out =>
    obtain ⟨hiff, k, -, hfailed, hend, hdoubled⟩ :=
      @Bucket.boot_starts_on_the_first_copy _ storage tokensSource firstReads _ _ _ staticConfig
        .boot out.1 out.2
    obtain rfl : k = 1 := by
      have hlength := congrArg List.length (hdoubled.symm.trans hslept)
      simpa using hlength
    have hcopied := hend.resolve_left (by decide)
    obtain ⟨k, -, hearlier, bytes, g, p, r, hread, hstarted⟩ := hiff.mp hboot
    -- both are the first read that was no failure
    have hk : k = 1 := by
      obtain ⟨bytes', g', hcopied⟩ := hcopied
      rcases lt_trichotomy k 1 with hlt | heq | hlt
      · obtain ⟨e, he⟩ := hfailed k hlt
        exact nomatch hread.symm.trans he
      · exact heq
      · obtain ⟨e, he⟩ := hearlier 1 hlt
        exact nomatch hcopied.symm.trans he
    subst hk
    exact ⟨out.1, out.2, rfl, hslept, bytes, g, p, r, hread, hstarted⟩

theorem instance_on_base_follows : ∃ config set,
    (storage.boot tokensSource staticConfig .boot firstReads).1 = .ok (config, set) ∧
      (∃ g, (g = 1 ∨ g ∈ checks.map Prod.fst) ∧ RestartsAs staticConfig bytesOf
        ((checks.map Prod.snd).foldl (storage.turned tokensSource staticConfig config)
          (Bucket.started set
            (storage.boot tokensSource staticConfig .boot firstReads).2)).running.tokens g) ∧
      storage.FollowsBucket tokensSource staticConfig bytesOf config ((checks.map Prod.snd).foldl
        (storage.turned tokensSource staticConfig config)
        (Bucket.started set (storage.boot tokensSource staticConfig .boot firstReads).2)) := by
  have hstarts : (storage.boot tokensSource staticConfig .boot firstReads).1.isOk = true := by
    decide +kernel
  cases hboot : (storage.boot tokensSource staticConfig .boot firstReads).1 with
  | error e =>
    rw [hboot] at hstarts
    cases hstarts
  | ok out =>
    have hfirst : ∀ j, storage.Serves tokensSource.url bytesOf 1 (firstReads j) := by
      intro j
      unfold firstReads
      split
      · exact failing_serves 1
      · exact serving_serves (by decide +kernel)
    have hserves : ∀ t ∈ checks, storage.Serves tokensSource.url bytesOf t.1 t.2 := by
      intro t ht
      simp only [checks, List.mem_cons, List.not_mem_nil, or_false] at ht
      rcases ht with rfl | rfl | rfl | rfl
      · exact serving_serves (by decide +kernel)
      · exact failing_serves 2
      · exact serving_serves (by decide +kernel)
      · exact serving_serves (by decide +kernel)
    obtain ⟨⟨-, -, -, hserved⟩, hfollows⟩ :=
      Bucket.instance_follows_bucket hfirst hboot hserves
    exact ⟨out.1, out.2, rfl, hserved, hfollows⟩

end Sample

end OracleServer
