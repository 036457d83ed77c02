-- The segment of the shared rate limits, byte by byte, from `rate_limit/shared`:
-- the length of the document and its text. A segment that cannot be attached is
-- created anew; one that can be attached, but not read, stays as it is.
import Rginx.RateLimits
import Rginx.SharedDocument

open rginx.cache

namespace rginx.rate_limit.shared

/-! ## The document -/

def DOCUMENT_LEN_BYTES : Nat := 8

def DOCUMENT_VERSION : Nat := 1

structure SharedRateLimitDocument where
  version : Nat
  next_cleanup_unix_ms : Nat
  buckets : Map TokenBucket

def SharedRateLimitDocument.default : SharedRateLimitDocument := ⟨DOCUMENT_VERSION, 0, ∅⟩

def maybe_cleanup_document (document : SharedRateLimitDocument) (now_unix_ms : Nat) :
    SharedRateLimitDocument :=
  if now_unix_ms < document.next_cleanup_unix_ms then document
  else
    { document with
      buckets := document.buckets.filterMap fun _ bucket =>
        bucket.retained shared_clock now_unix_ms
      next_cleanup_unix_ms := saturating_add now_unix_ms CLEANUP_INTERVAL_MS }

/-- The part of `check_at` between the reading and the writing of the document. -/
def SharedRateLimitDocument.check (document : SharedRateLimitDocument) (check : Check String) :
    SharedRateLimitDocument × Bool :=
  let document := maybe_cleanup_document document check.now
  let bucket := document.buckets[check.key]?.getD (TokenBucket.new check.policy check.now)
  let (bucket, allowed) := bucket.try_acquire shared_clock check.policy check.now
  ({ document with buckets := document.buckets.insert check.key bucket }, allowed)

/-- The document as a store of buckets. -/
def SharedRateLimitDocument.store (document : SharedRateLimitDocument) : BucketStore String :=
  ⟨fun key => document.buckets[key]?, document.next_cleanup_unix_ms⟩

theorem store_maybe_cleanup (document : SharedRateLimitDocument) (now_unix_ms : Nat) :
    (maybe_cleanup_document document now_unix_ms).store =
      maybe_cleanup shared_clock document.store now_unix_ms := by
  unfold maybe_cleanup_document maybe_cleanup
  by_cases hearly : now_unix_ms < document.next_cleanup_unix_ms
  · simp [SharedRateLimitDocument.store, hearly]
  · simp [SharedRateLimitDocument.store, hearly, shared_clock]

/-- A check of the document is one of its store. -/
theorem store_check (document : SharedRateLimitDocument) (check : Check String) :
    ((document.check check).1.store, (document.check check).2) =
      rate_limit.check_at shared_clock document.store check := by
  have hcleaned := store_maybe_cleanup document check.now
  unfold SharedRateLimitDocument.check rate_limit.check_at
  rw [← hcleaned]
  refine Prod.ext ?_ rfl
  simp only [SharedRateLimitDocument.store, BucketStore.mk.injEq, and_true]
  funext key
  rw [Std.ExtTreeMap.getElem?_insert]
  by_cases hkey : check.key = key
  · simp [hkey]
  · simp [hkey, Ne.symm hkey]

/-! ## The bytes of a segment -/

/-- `u64::to_le_bytes`. -/
def to_le_bytes (n : Nat) : List UInt8 := (List.range 8).map fun i => UInt8.ofNat (n / 256 ^ i)

/-- `u64::from_le_bytes`. -/
def from_le_bytes (bytes : List UInt8) : Nat :=
  bytes.foldr (fun byte rest => byte.toNat + 256 * rest) 0

theorem from_le_bytes_to_le_bytes {n : Nat} (h : n < 2 ^ 64) :
    from_le_bytes (to_le_bytes n) = n := by
  simp [from_le_bytes, to_le_bytes, List.range, List.range.loop]
  omega

/-- The payload of a segment. -/
structure Payload (payload_capacity : Nat) where
  bytes : List UInt8
  length_eq : bytes.length = payload_capacity

/-- `segment.zero()`. -/
def Payload.zeroed (payload_capacity : Nat) : Payload payload_capacity :=
  ⟨List.replicate payload_capacity 0, List.length_replicate⟩

/-- `write_payload` at the start of the payload, and what a process has written of it that is
killed early. What does not fit is not written. -/
def Payload.write {n : Nat} (payload : Payload n) (bytes : List UInt8) : Payload n :=
  if h : bytes.length ≤ n then
    ⟨bytes ++ payload.bytes.drop bytes.length, by simp [payload.length_eq, h]⟩
  else payload

theorem Payload.write_bytes {n : Nat} (payload : Payload n) {bytes : List UInt8}
    (h : bytes.length ≤ n) :
    (payload.write bytes).bytes = bytes ++ payload.bytes.drop bytes.length := by
  unfold Payload.write
  rw [dif_pos h]

/-- The memory under the name of the store: `attach` does not find it, finds a header that does
not match, or maps it. -/
inductive Memory (payload_capacity : Nat)
  | missing
  | mismatched
  | mapped (payload : Payload payload_capacity)

/-- The capacity is a `usize` of at least 4 KiB, less the header, which is enough for the first
document. No text of a document is empty. -/
structure SharedRateLimitStore where
  json : Json (List UInt8) SharedRateLimitDocument
  text : ∀ document, json.to_vec document ≠ .ok []
  payload_capacity : Nat
  large : DOCUMENT_LEN_BYTES ≤ payload_capacity
  small : payload_capacity < 2 ^ 64
  first : ∃ bytes, json.to_vec .default = .ok bytes ∧
    bytes.length ≤ payload_capacity - DOCUMENT_LEN_BYTES

section Store

variable (store : SharedRateLimitStore)

def SharedRateLimitStore.document_capacity : Nat := store.payload_capacity - DOCUMENT_LEN_BYTES

def read_document (segment : Payload store.payload_capacity) : IoResult SharedRateLimitDocument :=
  if store.payload_capacity < DOCUMENT_LEN_BYTES then
    .error ⟨.InvalidData, "shared rate-limit payload is too small for document length"⟩
  else
    let len := from_le_bytes (segment.bytes.take DOCUMENT_LEN_BYTES)
    if len = 0 then .ok .default
    else if store.document_capacity < len then
      .error ⟨.InvalidData,
        s!"shared rate-limit document length exceeds payload capacity: length {len}, " ++
          s!"capacity {store.document_capacity}"⟩
    else do
      let document ← store.json.from_slice ((segment.bytes.drop DOCUMENT_LEN_BYTES).take len)
      if document.version ≠ DOCUMENT_VERSION then
        .error ⟨.InvalidData,
          s!"unsupported shared rate-limit document version `{document.version}`"⟩
      else return document

/-- The length is written, and the text after it. -/
def write_document (segment : Payload store.payload_capacity)
    (document : SharedRateLimitDocument) : Payload store.payload_capacity × IoResult Unit :=
  match store.json.to_vec document with
  | .error error => (segment, .error error)
  | .ok bytes =>
    if store.document_capacity < bytes.length then
      (segment, .error ⟨.OutOfMemory,
        s!"shared rate-limit document exceeds capacity: length {bytes.length}, " ++
          s!"capacity {store.document_capacity}"⟩)
    else (segment.write (to_le_bytes bytes.length ++ bytes), .ok ())

def open_or_create_segment (memory : Memory store.payload_capacity) :
    Memory store.payload_capacity × IoResult (Payload store.payload_capacity) :=
  match memory with
  | .mapped segment => (memory, .ok segment)
  | .missing | .mismatched =>
    let (segment, written) := write_document store (.zeroed _) .default
    (.mapped segment, written.map fun _ => segment)

/-- `SharedRateLimitStore::check_at`, with the lock. -/
def SharedRateLimitStore.check_at (memory : Memory store.payload_capacity)
    (check : Check String) : Memory store.payload_capacity × IoResult Bool :=
  match open_or_create_segment store memory with
  | (memory, .error error) => (memory, .error error)
  | (memory, .ok segment) =>
    match read_document store segment with
    | .error error => (memory, .error error)
    | .ok document =>
      let (document, allowed) := document.check check
      let (segment, written) := write_document store segment document
      (.mapped segment, written.map fun _ => allowed)

/-- `RateLimiters::check`, of a route with a policy: an error denies the request. -/
def RateLimiters.check (result : IoResult Bool) : Bool :=
  match result with
  | .ok allowed => allowed
  | .error _ => false

/-- What a process leaves behind that is killed in `write_document`, after some of its bytes. -/
def interrupted_write (segment : Payload store.payload_capacity)
    (document : SharedRateLimitDocument) (count : Nat) : Payload store.payload_capacity :=
  match store.json.to_vec document with
  | .error _ => segment
  | .ok bytes => segment.write ((to_le_bytes bytes.length ++ bytes).take count)

/-- The answers to the calls, one after the other. -/
def SharedRateLimitStore.answers (memory : Memory store.payload_capacity) :
    List (Check String) → List (IoResult Bool)
  | [] => []
  | check :: checks =>
    let (memory, result) := store.check_at memory check
    result :: answers memory checks

/-- The document has a text that fits into the segment. -/
def SharedRateLimitStore.Fits (document : SharedRateLimitDocument) : Prop :=
  ∃ bytes, store.json.to_vec document = .ok bytes ∧ bytes.length ≤ store.document_capacity

end Store

/-! ## A segment that can be read, and one that cannot -/

section Calls

variable {store : SharedRateLimitStore}

/-- A document that fits is written, and is read again. -/
theorem write_document_of_fits (segment : Payload store.payload_capacity)
    {document : SharedRateLimitDocument} (h : store.Fits document) :
    ∃ segment', write_document store segment document = (segment', .ok ()) ∧
      (document.version = DOCUMENT_VERSION → read_document store segment' = .ok document) := by
  obtain ⟨bytes, htext, hfits⟩ := h
  have hlarge := store.large
  have hsmall := store.small
  refine ⟨segment.write (to_le_bytes bytes.length ++ bytes), ?_, ?_⟩
  · unfold write_document
    rw [htext]
    exact if_neg (not_lt.mpr hfits)
  · intro hversion
    unfold SharedRateLimitStore.document_capacity DOCUMENT_LEN_BYTES at *
    have hlen : (to_le_bytes bytes.length).length = 8 := rfl
    have hroom : (to_le_bytes bytes.length ++ bytes).length ≤ store.payload_capacity := by
      rw [List.length_append, hlen]
      omega
    have hbytes := segment.write_bytes hroom
    have hread : from_le_bytes (to_le_bytes bytes.length) = bytes.length :=
      from_le_bytes_to_le_bytes (by omega)
    have hne : bytes.length ≠ 0 := by
      intro hzero
      exact store.text document (List.length_eq_zero_iff.mp hzero ▸ htext)
    unfold read_document SharedRateLimitStore.document_capacity DOCUMENT_LEN_BYTES
    rw [if_neg (by omega), hbytes, List.append_assoc, List.take_left' hlen, List.drop_left' hlen,
      hread]
    dsimp only
    rw [if_neg hne, if_neg (not_lt.mpr hfits), List.take_left, store.json.round_trip _ _ htext]
    dsimp only [bind, Except.bind]
    rw [if_neg (not_not.mpr hversion)]
    rfl

theorem write_document_of_not_fits (segment : Payload store.payload_capacity)
    {document : SharedRateLimitDocument} (h : ¬ store.Fits document) :
    ∃ error, write_document store segment document = (segment, .error error) := by
  unfold write_document
  rcases htext : store.json.to_vec document with error | bytes
  · exact ⟨error, rfl⟩
  · have hlong : store.document_capacity < bytes.length := by
      by_contra hfits
      exact h ⟨bytes, htext, not_lt.mp hfits⟩
    dsimp only
    rw [if_pos hlong]
    exact ⟨_, rfl⟩

variable (store) in
/-- The bytes of a document: no length at all, or a length that the segment has and the text of
that length, of this version. -/
def SharedRateLimitStore.Holds (segment : Payload store.payload_capacity)
    (document : SharedRateLimitDocument) : Prop :=
  let len := from_le_bytes (segment.bytes.take DOCUMENT_LEN_BYTES)
  if len = 0 then document = .default
  else len ≤ store.document_capacity ∧
    store.json.from_slice ((segment.bytes.drop DOCUMENT_LEN_BYTES).take len) = .ok document ∧
    document.version = DOCUMENT_VERSION

theorem read_document_eq_ok_iff {segment : Payload store.payload_capacity}
    {document : SharedRateLimitDocument} :
    read_document store segment = .ok document ↔ store.Holds segment document := by
  unfold read_document SharedRateLimitStore.Holds
  rw [if_neg (not_lt.mpr store.large)]
  dsimp only
  split
  · rw [Except.ok.injEq, eq_comm]
  · split
    · rename_i hlong
      simp [not_le.mpr hlong]
    · rename_i hfits
      rcases hparse : store.json.from_slice ((segment.bytes.drop DOCUMENT_LEN_BYTES).take
        (from_le_bytes (segment.bytes.take DOCUMENT_LEN_BYTES))) with error | read
      · simp [bind, Except.bind]
      · dsimp only [bind, Except.bind]
        split
        · rename_i hversion
          simp only [reduceCtorEq, false_iff, not_and, Except.ok.injEq]
          rintro - rfl
          exact hversion
        · rename_i hversion
          simp only [pure, Except.pure, Except.ok.injEq, not_lt.mp hfits, true_and]
          constructor
          · rintro rfl
            exact ⟨rfl, not_not.mp hversion⟩
          · exact And.left

variable (store) in
/-- The document that a call finds: the first one, where it has to create the segment. -/
def SharedRateLimitStore.Reads (memory : Memory store.payload_capacity)
    (document : SharedRateLimitDocument) : Prop :=
  match memory with
  | .mapped segment => store.Holds segment document
  | .missing | .mismatched => document = .default

theorem SharedRateLimitStore.Reads.unique {memory : Memory store.payload_capacity}
    {document document' : SharedRateLimitDocument} (h : store.Reads memory document)
    (h' : store.Reads memory document') : document = document' := by
  cases memory with
  | mapped segment =>
    exact Except.ok.inj ((read_document_eq_ok_iff.mpr h).symm.trans (read_document_eq_ok_iff.mpr h'))
  | missing | mismatched => exact h.trans h'.symm

variable (store) in
/-- The memory reads as a document that still fits after the check. -/
def SharedRateLimitStore.Room (memory : Memory store.payload_capacity) (check : Check String) :
    Prop :=
  ∃ document, store.Reads memory document ∧ store.Fits (document.check check).1

theorem open_or_create_of_reads {memory : Memory store.payload_capacity}
    {document : SharedRateLimitDocument} (h : store.Reads memory document) :
    ∃ segment, open_or_create_segment store memory = (.mapped segment, .ok segment) ∧
      read_document store segment = .ok document := by
  have hcreated : ∃ segment, (let (segment, written) := write_document store (.zeroed _) .default
      (Memory.mapped segment, written.map fun _ => segment)) = (.mapped segment, .ok segment) ∧
        read_document store segment = .ok .default := by
    obtain ⟨segment, hwrite, hread⟩ := write_document_of_fits (.zeroed _) store.first
    refine ⟨segment, ?_, hread rfl⟩
    rw [hwrite]
    rfl
  cases memory with
  | mapped segment => exact ⟨segment, rfl, read_document_eq_ok_iff.mpr h⟩
  | missing =>
    obtain rfl := h
    exact hcreated
  | mismatched =>
    obtain rfl := h
    exact hcreated

/-- A check keeps the version of the document. -/
theorem check_version (document : SharedRateLimitDocument) (check : Check String) :
    (document.check check).1.version = document.version := by
  unfold SharedRateLimitDocument.check maybe_cleanup_document
  dsimp only
  split <;> rfl

/-- A call is answered when there is room for it. -/
theorem check_at_of_fits {memory : Memory store.payload_capacity}
    {document : SharedRateLimitDocument} (hread : store.Reads memory document)
    {check : Check String} (hfits : store.Fits (document.check check).1) :
    ∃ segment', store.check_at memory check = (.mapped segment', .ok (document.check check).2) ∧
      (document.version = DOCUMENT_VERSION →
        store.Reads (.mapped segment') (document.check check).1) := by
  obtain ⟨segment, hopen, hread⟩ := open_or_create_of_reads hread
  obtain ⟨segment', hwrite, hagain⟩ := write_document_of_fits segment hfits
  refine ⟨segment', ?_, fun hversion =>
    read_document_eq_ok_iff.mp (hagain ((check_version document check).trans hversion))⟩
  unfold SharedRateLimitStore.check_at
  rw [hopen]
  dsimp only
  rw [hread]
  dsimp only
  rw [hwrite]
  rfl

/-- A call that there is no room for leaves the document. -/
theorem check_at_of_not_fits {memory : Memory store.payload_capacity}
    {document : SharedRateLimitDocument} (hread : store.Reads memory document)
    {check : Check String} (hlong : ¬ store.Fits (document.check check).1) :
    ∃ segment error, store.check_at memory check = (.mapped segment, .error error) ∧
      store.Reads (.mapped segment) document := by
  obtain ⟨segment, hopen, hread⟩ := open_or_create_of_reads hread
  obtain ⟨error, hwrite⟩ := write_document_of_not_fits segment hlong
  refine ⟨segment, error, ?_, read_document_eq_ok_iff.mp hread⟩
  unfold SharedRateLimitStore.check_at
  rw [hopen]
  dsimp only
  rw [hread]
  dsimp only
  rw [hwrite]
  rfl

/-- A call on a segment that cannot be read, or has no room, leaves the segment. -/
theorem check_at_of_no_room {segment : Payload store.payload_capacity} {check : Check String}
    (h : ¬ store.Room (.mapped segment) check) :
    ∃ error, store.check_at (.mapped segment) check = (.mapped segment, .error error) := by
  unfold SharedRateLimitStore.check_at open_or_create_segment
  dsimp only
  rcases hread : read_document store segment with error | document
  · exact ⟨error, rfl⟩
  · have hlong : ¬ store.Fits (document.check check).1 := 
      fun hfits => h ⟨document, read_document_eq_ok_iff.mp hread, hfits⟩
    obtain ⟨error, hwrite⟩ := write_document_of_not_fits segment hlong
    dsimp only
    rw [hwrite]
    exact ⟨error, rfl⟩

/-! ## Calls until one is served -/

theorem answers_of_no_room {segment : Payload store.payload_capacity}
    {checks : List (Check String)} (h : ∀ check ∈ checks, ¬ store.Room (.mapped segment) check) :
    ∀ result ∈ store.answers (.mapped segment) checks, ∃ error, result = .error error := by
  induction checks with
  | nil => nofun
  | cons check checks ih =>
    obtain ⟨error, hfails⟩ := check_at_of_no_room (h check List.mem_cons_self)
    unfold SharedRateLimitStore.answers
    rw [hfails]
    intro result hresult
    rcases List.mem_cons.mp hresult with rfl | hrest
    · exact ⟨error, rfl⟩
    · exact ih (fun other hother => h other (List.mem_cons_of_mem _ hother)) result hrest

/-- Calls that are not served leave the segment to the one that is. -/
theorem answers_of_room {segment : Payload store.payload_capacity} {check : Check String}
    (hroom : store.Room (.mapped segment) check) (before : List (Check String))
    (h : ∀ other ∈ before, ¬ store.Room (.mapped segment) other) :
    ∃ allowed, .ok allowed ∈ store.answers (.mapped segment) (before ++ [check]) := by
  induction before with
  | nil =>
    obtain ⟨document, hread, hfits⟩ := hroom
    obtain ⟨segment', hanswers, -⟩ := check_at_of_fits hread hfits
    refine ⟨(document.check check).2, ?_⟩
    rw [List.nil_append, SharedRateLimitStore.answers, hanswers]
    exact List.mem_cons_self
  | cons other before ih =>
    obtain ⟨error, hfails⟩ := check_at_of_no_room (h other List.mem_cons_self)
    obtain ⟨allowed, hmem⟩ := ih fun next hnext => h next (List.mem_cons_of_mem _ hnext)
    refine ⟨allowed, ?_⟩
    rw [List.cons_append, SharedRateLimitStore.answers, hfails]
    exact List.mem_cons_of_mem _ hmem

theorem some_call_is_answered_iff (segment : Payload store.payload_capacity)
    (calls : Nat → Check String) :
    (∃ k, ∃ allowed, .ok allowed ∈ store.answers (.mapped segment) ((List.range k).map calls)) ↔
      ∃ i, store.Room (.mapped segment) (calls i) := by
  classical
  constructor
  · rintro ⟨k, allowed, hmem⟩
    by_contra hnone
    rw [not_exists] at hnone
    have hcalls : ∀ check ∈ (List.range k).map calls, ¬ store.Room (.mapped segment) check := by
      simpa using fun i _ => hnone i
    obtain ⟨error, herror⟩ := answers_of_no_room hcalls _ hmem
    cases herror
  · intro hsome
    obtain ⟨allowed, hmem⟩ := answers_of_room (Nat.find_spec hsome)
      ((List.range (Nat.find hsome)).map calls) (by simpa using fun i hi => Nat.find_min hsome hi)
    refine ⟨Nat.find hsome + 1, allowed, ?_⟩
    rwa [List.range_succ, List.map_append]

/-- Calls of clients are answered within a bound exactly when the first one always is. -/
theorem a_bound_holds_iff (segment : Payload store.payload_capacity)
    (clients : Set (Check String)) :
    (∃ k, ∀ calls : List (Check String), calls.length = k → (∀ call ∈ calls, call ∈ clients) →
        ∃ allowed, .ok allowed ∈ store.answers (.mapped segment) calls) ↔
      ∀ call ∈ clients, store.Room (.mapped segment) call := by
  constructor
  · rintro ⟨k, hbound⟩ call hcall
    by_contra hnone
    have hsame : ∀ other ∈ List.replicate k call, other = call :=
      fun other hother => List.eq_of_mem_replicate hother
    obtain ⟨allowed, hmem⟩ := hbound (List.replicate k call) List.length_replicate
      fun other hother => hsame other hother ▸ hcall
    obtain ⟨error, herror⟩ := answers_of_no_room
      (fun other hother => hsame other hother ▸ hnone) _ hmem
    cases herror
  · intro hroom
    refine ⟨1, ?_⟩
    intro calls hlength hclients
    obtain ⟨call, rfl⟩ := List.length_eq_one_iff.mp hlength
    exact answers_of_room (hroom call (hclients call (List.mem_singleton_self _))) [] nofun

/-- Some call gets an answer, whatever bytes the segment holds, if and only if they are those of
a document that has room for one of the calls. There is one bound for all calls of some clients
exactly when it has room for each of theirs. -/
theorem a_segment_is_served_iff (store : SharedRateLimitStore)
    (segment : Payload store.payload_capacity) :
    (∀ calls : Nat → Check String,
      (∃ k, ∃ allowed, .ok allowed ∈
        store.answers (.mapped segment) ((List.range k).map calls)) ↔
      ∃ i, store.Room (.mapped segment) (calls i)) ∧
    ∀ clients : Set (Check String),
      (∃ k, ∀ calls : List (Check String), calls.length = k → (∀ call ∈ calls, call ∈ clients) →
        ∃ allowed, .ok allowed ∈ store.answers (.mapped segment) calls) ↔
      ∀ call ∈ clients, store.Room (.mapped segment) call :=
  ⟨some_call_is_answered_iff segment, a_bound_holds_iff segment⟩

end Calls

/-! ## A length without its text -/

/-- The text of a document without buckets. -/
def default_text : List UInt8 :=
  "\x7b\"version\":1,\"next_cleanup_unix_ms\":0,\"buckets\":\x7b\x7d\x7d".toList.map fun c =>
    UInt8.ofNat c.toNat

/-- `serde_json` for the document without buckets. -/
def defaultJson : Json (List UInt8) SharedRateLimitDocument where
  to_vec document :=
    if document.version = DOCUMENT_VERSION ∧ document.next_cleanup_unix_ms = 0 ∧
        document.buckets.isEmpty then .ok default_text
    else .error ⟨.InvalidData, "a document with buckets"⟩
  from_slice bytes :=
    if bytes = default_text then .ok .default
    else .error ⟨.InvalidData, "expected value at line 1 column 1"⟩
  round_trip := by
    intro document bytes h
    split at h
    · rename_i hdefault
      obtain ⟨hversion, hcleanup, hbuckets⟩ := hdefault
      obtain rfl := Except.ok.inj h
      rw [if_pos rfl]
      have hempty : document.buckets = ∅ := Std.ExtTreeMap.isEmpty_iff.mp hbuckets
      obtain ⟨version, next_cleanup_unix_ms, buckets⟩ := document
      dsimp only at hversion hcleanup hempty
      rw [hversion, hcleanup, hempty]
      rfl
    · cases h

theorem defaultJson_default : defaultJson.to_vec .default = .ok default_text := by
  unfold defaultJson
  dsimp only
  rw [if_pos ⟨rfl, rfl, Std.ExtTreeMap.isEmpty_iff.mpr rfl⟩]

/-- The smallest segment that the configuration allows. -/
def smallStore : SharedRateLimitStore where
  json := defaultJson
  text := by
    intro document h
    unfold defaultJson at h
    dsimp only at h
    split at h
    · exact absurd (Except.ok.inj h) (by decide)
    · cases h
  payload_capacity := 4096 - 104
  large := by decide
  small := by decide
  first := ⟨default_text, defaultJson_default, by decide⟩

/-- The payload after the first eight bytes of the first write. -/
def lengthOnly : Payload smallStore.payload_capacity :=
  interrupted_write smallStore (.zeroed _) .default DOCUMENT_LEN_BYTES

theorem lengthOnly_bytes :
    lengthOnly.bytes = to_le_bytes 51 ++ List.replicate (4096 - 104 - 8) 0 := by
  have htext : smallStore.json.to_vec .default = .ok default_text := defaultJson_default
  have hfirst : (to_le_bytes default_text.length ++ default_text).take DOCUMENT_LEN_BYTES =
      to_le_bytes 51 := by
    decide
  unfold lengthOnly interrupted_write
  rw [htext]
  dsimp only
  rw [hfirst, Payload.write_bytes _ smallStore.large]
  exact congrArg _ List.drop_replicate

theorem lengthOnly_unreadable :
    ∃ error, read_document smallStore lengthOnly = .error error := by
  have hlen : from_le_bytes (to_le_bytes 51) = 51 := by decide
  have hzeros : (List.replicate (4096 - 104 - 8) (0 : UInt8)).take 51 ≠ default_text := by
    rw [List.take_replicate]
    decide
  have hparse : smallStore.json.from_slice ((List.replicate (4096 - 104 - 8) 0).take 51) =
      .error ⟨.InvalidData, "expected value at line 1 column 1"⟩ := by
    unfold smallStore defaultJson
    dsimp only
    rw [if_neg hzeros]
  refine ⟨⟨.InvalidData, "expected value at line 1 column 1"⟩, ?_⟩
  have hprefix : (to_le_bytes 51).length = DOCUMENT_LEN_BYTES := rfl
  unfold read_document
  rw [lengthOnly_bytes, List.take_left' hprefix, List.drop_left' hprefix, hlen]
  dsimp only
  rw [hparse]
  rfl

/-- A process is killed after it has written the length of the first document: every later call
is denied. -/
theorem a_length_without_text_denies_every_call :
    ¬ ∀ calls : Nat → Check String, ∃ k, ∃ allowed,
      .ok allowed ∈ smallStore.answers (.mapped lengthOnly) ((List.range k).map calls) := by
  intro h
  obtain ⟨i, document, hread, -⟩ :=
    (some_call_is_answered_iff lengthOnly _).mp (h fun now => ⟨"/", one_per_ms, now⟩)
  obtain ⟨error, herror⟩ := lengthOnly_unreadable
  have hholds : smallStore.Holds lengthOnly document := hread
  cases (read_document_eq_ok_iff.mpr hholds).symm.trans herror

end rginx.rate_limit.shared
