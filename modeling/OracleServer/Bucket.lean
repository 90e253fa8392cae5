import OracleServer.Lib.PercentCoding
import OracleServer.ReloadRun
import OracleServer.Sign

/-! The reads of the bucket in `token_file.rs`, and the two that make them: boot and the
loop of `Reloader::spawn`. A read is one `objects.get` under an access token, which the
metadata server mints and the reader caches. What the HTTP client hands back is an input;
its errors carry the text of `format!("{e:#}")`. -/
namespace OracleServer

class Http where
  /-- `StatusCode::canonical_reason`. -/
  reason : UInt16 → Option String
  /-- `String::from_utf8_lossy`. -/
  lossy : ByteArray → String

/-- `url` is the text handed to the client, which parses it. -/
structure HttpRequest where
  url : String
  bearer : String

/-- The headers are those that are read; the body is its chunks up to its end, or up to
the error that broke it off. -/
structure HttpResponse where
  status : UInt16
  generation : Option (List UInt8)
  contentLength : Option UInt64
  chunks : List ByteArray
  broken : Option String

/-- The answer to a token request: the error of the request, or the body read as JSON. -/
abbrev MetadataReply := Except String (Except String (String × UInt64))

inductive TokenSource
  | fixed (token : String)
  | metadata (url : String)

structure Bucket where
  storageUrl : String
  token : TokenSource

/-- The access token of the last metadata answer, and until when it is used. -/
abbrev CachedToken := Option (String × Nanos)

inductive Read
  | unchanged
  | copy (bytes : ByteArray) (generation : Int64)
  deriving DecidableEq

/-- What the world has for one read: the two readings of the clock and the answers. -/
structure Network where
  checkedAt : Nanos
  mintedAt : Nanos
  metadata : MetadataReply
  object : HttpRequest → Except String HttpResponse

/-- One request that was made, with its answer and when its read looked at the cached token. -/
inductive Exchange
  | metadata (checkedAt : Nanos) (answer : MetadataReply) (mintedAt : Nanos)
  | object (checkedAt : Nanos) (request : HttpRequest) (answer : Except String HttpResponse)

def maxBodyBytes : ℕ := 4 * 1024 * 1024

namespace HttpResponse

def isSuccess (r : HttpResponse) : Bool := 200 ≤ r.status && r.status < 300

def showStatus [Http] (status : UInt16) : String :=
  let reason := (Http.reason status).getD "<unknown status code>"
  s!"{status} {reason}"

end HttpResponse

/-- `str::parse::<i64>`: a sign, if any, and digits that fit. -/
def parseI64 (text : List Char) : Option Int64 :=
  let (negative, digits) := match text with
    | '-' :: rest => (true, rest)
    | '+' :: rest => (false, rest)
    | _ => (false, text)
  if digits.isEmpty || !digits.all Char.isDigit then none
  else
    let n : ℤ := digits.foldl (fun n d => 10 * n + (d.toNat - '0'.toNat)) (0 : ℕ)
    let x := if negative then -n else n
    if -2 ^ 63 ≤ x ∧ x < 2 ^ 63 then some (Int64.ofInt x) else none

/-- `HeaderValue::to_str` and `str::trim` of what it accepts: visible ASCII and tabs. -/
def headerText (value : List UInt8) : Option (List Char) :=
  if value.all fun b => b = 9 || (32 ≤ b && b < 127) then
    let blank : Char → Bool := fun c => c = ' ' || c = '\t'
    some ((((value.map fun b => Char.ofNat b.toNat).dropWhile blank).reverse.dropWhile blank).reverse)
  else none

/-- The object generation of a media response. -/
def generationOf (header : Option (List UInt8)) : Option Int64 :=
  ((header.bind headerText).bind parseI64).filter (0 < ·)

/-- The bytes of a path segment that stand for themselves. -/
def isUnreserved (b : UInt8) : Bool :=
  (65 ≤ b && b ≤ 90) || (97 ≤ b && b ≤ 122) || (48 ≤ b && b ≤ 57) || b = 45 || b = 95 || b = 46 ||
    b = 126

/-- Percent-encode one path segment; object names contain `/`. -/
def percent (segment : String) : String :=
  String.ofList (percentEncode isUnreserved segment.toUTF8.data.toList)

/-- `gs://bucket/object` into its bucket and object, both non-empty. -/
def splitGsUrl (gsUrl : String) : Except String (String × String) :=
  let refusal := s!"[registry] url {gsUrl.quote} is not gs://<bucket>/<object>"
  match gsUrl.toList with
  | 'g' :: 's' :: ':' :: '/' :: '/' :: rest =>
    match rest.dropWhile (· ≠ '/') with
    | _ :: object =>
      let bucket := rest.takeWhile (· ≠ '/')
      if bucket.isEmpty || object.isEmpty then .error refusal
      else .ok (String.ofList bucket, String.ofList object)
    | [] => .error refusal
  | _ => .error refusal

namespace Bucket

def objectUrl (b : Bucket) (bucket object : String) (unlessGeneration : Option Int64) : String :=
  let url := s!"{b.storageUrl}/storage/v1/b/{percent bucket}/o/{percent object}?alt=media"
  match unlessGeneration with
  | some generation => url ++ s!"&ifGenerationNotMatch={generation}"
  | none => url

/-- The path and the query that are asked for, below the storage URL: the client's parser
resolves the dot segments of the path, and `percent` lets dots through. -/
def asked (b : Bucket) (request : HttpRequest) : List (List Char) × List Char :=
  let below := request.url.toList.drop b.storageUrl.toList.length
  (resolveDots [] ((below.takeWhile (· ≠ '?')).splitOn '/').tail, below.dropWhile (· ≠ '?'))

/-- The cached token while it lasts, else a fresh one, kept until a minute before it expires. -/
def accessToken (b : Bucket) (cached : CachedToken) (net : Network) :
    Except String String × CachedToken × List Exchange :=
  match b.token with
  | .fixed token => (.ok token, cached, [])
  | .metadata _ =>
    match cached.filter fun c => net.checkedAt < c.2 with
    | some c => (.ok c.1, cached, [])
    | none =>
      let sent := [Exchange.metadata net.checkedAt net.metadata net.mintedAt]
      match net.metadata with
      | .error e => (.error s!"getting an access token to read the token file: {e}", cached, sent)
      | .ok (.error e) => (.error s!"reading the metadata access token: {e}", cached, sent)
      | .ok (.ok fresh) =>
        (.ok fresh.1, some (fresh.1, net.mintedAt + seconds (fresh.2.toNat - 60)), sent)

def forgetAccessToken (b : Bucket) (cached : CachedToken) : CachedToken :=
  match b.token with
  | .fixed _ => cached
  | .metadata _ => none

def tooLarge (gsUrl : String) : String := s!"{gsUrl} is larger than {maxBodyBytes} bytes; refusing it"

/-- The body, one chunk after the other. -/
def collect (gsUrl : String) (broken : Option String) (bytes : ByteArray) :
    List ByteArray → Except String ByteArray
  | [] =>
    match broken with
    | some e => .error s!"reading the token file body: {e}"
    | none => .ok bytes
  | chunk :: chunks =>
    if bytes.size + chunk.size > maxBodyBytes then .error (tooLarge gsUrl)
    else collect gsUrl broken (bytes ++ chunk) chunks

/-- A successful response, as the latest copy and its generation. -/
def copyOf (gsUrl : String) (r : HttpResponse) : Except String Read :=
  match generationOf r.generation with
  | none => .error s!"fetching {gsUrl}: no usable x-goog-generation header"
  | some generation =>
    if r.contentLength.any fun n => n.toNat > maxBodyBytes then .error (tooLarge gsUrl)
    else (collect gsUrl r.broken .empty r.chunks).map fun bytes => .copy bytes generation

variable [Http]

/-- The error of a response that is no success, with the start of its first chunk. -/
def failureOf (gsUrl : String) (r : HttpResponse) : String :=
  let first := r.chunks.head?.getD .empty
  s!"fetching {gsUrl} returned {HttpResponse.showStatus r.status}: {String.ofList ((Http.lossy first).toList.take 300)}"

/-- What a read makes of the reply, and of the token it was sent with. -/
def answered (b : Bucket) (gsUrl : String) (unlessGeneration : Option Int64) (cached : CachedToken) :
    Except String HttpResponse → Except String Read × CachedToken
  | .error e => (.error s!"fetching {gsUrl}: {e}", cached)
  | .ok r =>
    if unlessGeneration.isSome && r.status = 304 then (.ok .unchanged, cached)
    else if !r.isSuccess then
      (.error (failureOf gsUrl r), if r.status = 401 then b.forgetAccessToken cached else cached)
    else (copyOf gsUrl r, cached)

/-- One read: its outcome, the cached token after it, and the requests it made. -/
def read (b : Bucket) (cached : CachedToken) (net : Network) (gsUrl : String)
    (unlessGeneration : Option Int64) : Except String Read × CachedToken × List Exchange :=
  match splitGsUrl gsUrl with
  | .error e => (.error e, cached, [])
  | .ok (bucket, object) =>
    match b.accessToken cached net with
    | (.error e, cached, sent) => (.error e, cached, sent)
    | (.ok token, cached, sent) =>
      let request : HttpRequest := ⟨b.objectUrl bucket object unlessGeneration, token⟩
      let answer := net.object request
      let (result, cached) := b.answered gsUrl unlessGeneration cached answer
      (result, cached, sent ++ [.object net.checkedAt request answer])

end Bucket

/-- How boot retries a failed bucket read. -/
structure Retry where
  attempts : ℕ
  firstBackoff : Nanos

/-- Four reads, 4s/8s/16s apart. -/
def Retry.boot : Retry := ⟨4, seconds 4⟩

/-- What the reads of boot came to: a copy or the last error, and the sleeps between them. -/
structure BootReads where
  result : Except String (ByteArray × Int64)
  slept : List Nanos
  cached : CachedToken

namespace Bucket
variable [Http] (b : Bucket) (source : RegistrySource)

/-- The read loop of `boot`, with `retries` failures it may still sleep over. -/
def bootReads (nets : ℕ → Network) : (retries attempt : ℕ) → Nanos → CachedToken → BootReads
  | retries, attempt, backoff, cached =>
    match b.read cached (nets attempt) source.url none with
    | (.ok (.copy bytes generation), cached, _) => ⟨.ok (bytes, generation), [], cached⟩
    | (.ok .unchanged, cached, _) =>
      ⟨.error s!"an unconditional read of {source.url} was not modified", [], cached⟩
    | (.error e, cached, _) =>
      match retries with
      | 0 =>
        ⟨.error s!"no live token file reachable at {source.url} after {attempt} tries; refusing to start: {e}",
          [], cached⟩
      | retries + 1 =>
        let rest := bootReads nets retries (attempt + 1) (backoff * 2) cached
        { rest with slept := backoff :: rest.slept }

variable [Toml] [Alloy] [Unicode]

/-- `token_file::boot`. The attempts are counted from 1. -/
def boot (staticConfig : Table) (retry : Retry) (nets : ℕ → Network) :
    Except String (Config × TokenSet) × BootReads :=
  let reads := b.bootReads source nets (retry.attempts - 1) 1 retry.firstBackoff none
  match reads.result with
  | .error e => (.error e, reads)
  | .ok (bytes, generation) =>
    match TokenFile.candidate staticConfig bytes with
    | .error e =>
      (.error s!"the live token file {source.url} (generation {generation}) fails validation; refusing to start: {e}",
        reads)
    | .ok (projection, config, registry) =>
      (.ok (config, ⟨registry, config.symbols, some projection, some generation⟩), reads)

/-- One turn of the loop in `Reloader::spawn`: the read, and the writes it leads to. -/
def turn (staticConfig : Table) (bootConfig : Config) (s : Running) (cached : CachedToken)
    (net : Network) : List ReloadStep × CachedToken :=
  match b.read cached net source.url (s.rejected.or s.tokens.generation) with
  | (.error _, cached, _) => ([], cached)
  | (.ok .unchanged, cached, _) => ([], cached)
  | (.ok (.copy bytes generation), cached, _) =>
    (Reload.apply s.tokens (Reload.decide staticConfig bootConfig s.tokens generation bytes), cached)

end Bucket

end OracleServer
