-- One fill of the cache while its response streams, from `cache/store/streaming.rs`,
-- `cache/store/streaming/` and `cache/fill/local.rs`: the body that a client polls, the task that
-- reads the upstream for readers alone, the writer behind its queue, and the readers that follow the
-- file while it grows. Each step is one operation on what these tasks share.
import Rginx.CacheFiles
import Rginx.RangeTrim
import Rginx.StepRuns

namespace rginx.cache.streaming

def STREAMING_CACHE_WRITE_QUEUE_DEPTH : Nat := 8

def IN_FLIGHT_FILL_READ_CHUNK_BYTES : Nat := 16 * 1024

/-! ## The upstream -/

def is_trailers : BodyFrame → Bool
  | .Data _ => false
  | .Trailers _ => true

/-- The data of a frame; a frame of trailers has none. -/
def frame_data : BodyFrame → List UInt8
  | .Data data => data
  | .Trailers _ => []

/-- What a poll of the upstream's body gives, and what `is_end_stream` says after a frame. -/
inductive UpstreamPoll
  | Pending
  | Frame (frame : BodyFrame) (is_end_stream : Bool)
  | Error (error : IoError)
  | End

/-- What the upstream has given: the data of its frames, and the trailers once it is complete. -/
structure Upstream where
  received : List UInt8
  completed : Option (Option HeaderMap)
  failed : Bool

/-- Nobody polls the upstream once it is complete, or after an error. -/
def Upstream.ended (upstream : Upstream) : Bool := upstream.completed.isSome || upstream.failed

def Upstream.receive (upstream : Upstream) (frame : BodyFrame) : Upstream :=
  { upstream with received := upstream.received ++ frame_data frame }

def Upstream.complete (upstream : Upstream) (trailers : Option HeaderMap) : Upstream :=
  { upstream with completed := some trailers }

def Upstream.fail (upstream : Upstream) : Upstream := { upstream with failed := true }

/-! ## The tasks -/

inductive StreamingCacheWriteMessage
  | Data (bytes : List UInt8)
  | Finish (trailers : Option HeaderMap)
  | Abort

/-- The two tasks that send to the writer and wait for room. -/
inductive FillTask
  | Origin
  | Drain (cached_body_bytes : Nat)

/-- Who reads the upstream and holds the sending end of the queue, and the operation that comes
next. A `completed` part says that the frame at hand is the last one. -/
inductive Producer
  /-- A `StreamingCacheBody` between two polls, with its writer. -/
  | Body (cached_body_bytes : Nat)
  /-- A `StreamingCacheBody` that has no writer any more. -/
  | Passing
  /-- `drive_streaming_origin_fill` and `drain_remaining_frames`, at `inner.frame()`. -/
  | Reading (task : FillTask)
  | TrySendData (cached_body_bytes : Nat) (bytes : List UInt8)
      (completed : Option (Option HeaderMap))
  | AbortFails
  | AbortSends
  | TryFinish (trailers : Option HeaderMap)
  | SendData (task : FillTask) (bytes : List UInt8) (completed : Option (Option HeaderMap))
  /-- `finish`; the origin fill reports a queue that is closed. -/
  | Finish (reports : Bool) (trailers : Option HeaderMap)
  | MarkUpstreamComplete
  | OriginFails (reason : String)
  | Gone

/-- The next operation of `complete_streaming_cache` and `finalize_streaming_cache`. -/
inductive CacheWriter
  | Receive
  | WriteAll (bytes : List UInt8)
  | RecordBytesWritten
  | Flush (trailers : Option HeaderMap)
  | StoreTrailers (trailers : Option HeaderMap)
  | StoreFinished
  | CheckSize
  | PrepareResponseHead
  | CreateDir
  | WriteMetadata
  | RenameBody
  | RenameMetadata
  | UpdateIndex
  | Fail (reason : String) (flushes : Bool)
  | FlushAborted
  | RemoveTmp (remove_final : Bool)
  | RemoveFinal
  | Done
  deriving DecidableEq

inductive OpenedFile
  | Own
  | Other (content : List UInt8)
  deriving DecidableEq

/-- What fails a reader: an operation on the file, or the fill itself. -/
inductive FillReadError
  | Io (error : IoError)
  | Other (message : String)

/-- The next operation of `stream_inflight_fill_body`. -/
inductive ReaderPhase
  | OpenTmp
  | AskFinished
  | OpenBody
  | LoadBytesWritten
  | Read (chunk_len : Nat) (buffer : List UInt8)
  | ReadNothing (chunk_len : Nat) (buffer : List UInt8)
  | SendChunk (buffer : List UInt8)
  | LoadError
  | LoadFinished
  | LockTrailers
  | SendTrailers (trailers : HeaderMap)
  | SendError (error : FillReadError)
  | Ended
  | Dropped

/-- An `InFlightFillBody` and its task: the file that it reads, how far, and what it has sent. -/
structure InFlightFillBody where
  phase : ReaderPhase
  opened : Option OpenedFile
  offset : Nat
  chunks : List (List UInt8)
  last : Option (Except FillReadError HeaderMap)

def InFlightFillBody.new : InFlightFillBody := ⟨.OpenTmp, none, 0, [], none⟩

/-- What its client has been sent. -/
def InFlightFillBody.sent (body : InFlightFillBody) : List (Except FillReadError BodyFrame) :=
  body.chunks.map (fun chunk => .ok (.Data chunk)) ++
    (body.last.map fun last => last.map BodyFrame.Trailers).toList

/-- The body has come to its end, and no error came before it. -/
def InFlightFillBody.EndedCleanly (body : InFlightFillBody) : Prop :=
  body.phase = .Ended ∧ ∀ error, body.last ≠ some (.error error)

/-! ## What the tasks share -/

/-- The temporary file: what was handed to `write_all`, how much of it has come to the file, and
whether the file still has its temporary name. -/
structure TmpFile where
  written : List UInt8
  visible : Nat
  linked : Bool

structure CacheFillReadState where
  bytes_written : Nat
  finished : Bool
  upstream_completed : Bool
  trailers : Option HeaderMap
  error : Option String

structure StreamingFill where
  plan : StreamingCachePlan
  upstream : Upstream
  producer : Producer
  queue : List StreamingCacheWriteMessage
  writer : CacheWriter
  body_size_bytes : Nat
  tmp : TmpFile
  body_path : Option OpenedFile
  fill_state : CacheFillReadState
  /-- The entry that the fill has put into the index. -/
  committed : Option CacheIndexEntry
  readers : List InFlightFillBody

/-- The end of `store_streaming_response`: a fill that is shared while its client needs a part of
the slice is read by a task, and the client is its first reader. -/
def store_streaming_response (plan : StreamingCachePlan) (trims : Bool)
    (body_path : Option (List UInt8)) : StreamingFill where
  plan
  upstream := ⟨[], none, false⟩
  producer := if trims then .Reading .Origin else .Body 0
  queue := []
  writer := .Receive
  body_size_bytes := 0
  tmp := ⟨[], 0, true⟩
  body_path := body_path.map .Other
  fill_state := ⟨0, false, false, none, none⟩
  committed := none
  readers := if trims then [.new] else []

namespace CacheFillReadState

def record_bytes_written (state : CacheFillReadState) (body_size_bytes : Nat) :
    CacheFillReadState :=
  { state with bytes_written := body_size_bytes }

def store_trailers (state : CacheFillReadState) (trailers : Option HeaderMap) :
    CacheFillReadState :=
  { state with trailers }

def store_finished (state : CacheFillReadState) : CacheFillReadState :=
  { state with finished := true }

def fail (state : CacheFillReadState) (error : String) : CacheFillReadState :=
  { state with error := some error }

def mark_upstream_complete (state : CacheFillReadState) : CacheFillReadState :=
  { state with upstream_completed := true }

end CacheFillReadState

/-! ## The steps of the producer -/

/-- The sending end of the queue exists. -/
def Producer.holds_sender : Producer → Bool
  | .Passing | .Gone => false
  | _ => true

/-- The receiving end goes when the writer returns. -/
def StreamingFill.receiver_open (fill : StreamingFill) : Bool := fill.writer ≠ .Done

def StreamingFill.has_room (fill : StreamingFill) : Bool :=
  fill.queue.length < STREAMING_CACHE_WRITE_QUEUE_DEPTH

def StreamingFill.sends (fill : StreamingFill) (message : StreamingCacheWriteMessage)
    (producer : Producer) : StreamingFill :=
  { fill with queue := fill.queue ++ [message], producer }

/-- What the poll of a frame leads to, once the frame is part of what the upstream gave. -/
def Producer.on_data (producer : Producer) (max_entry_bytes : Nat) (data : List UInt8)
    (completed : Option (Option HeaderMap)) : Producer :=
  match producer with
  | .Body cached_body_bytes =>
    if data = [] then
      match completed with
      | none => .Body cached_body_bytes
      | some trailers => .TryFinish trailers
    else .TrySendData cached_body_bytes data completed
  | .Reading .Origin =>
    if data = [] then
      match completed with
      | none => .Reading .Origin
      | some trailers => .Finish true trailers
    else .SendData .Origin data completed
  | .Reading (.Drain cached_body_bytes) =>
    if data = [] then .Reading (.Drain cached_body_bytes)
    else if max_entry_bytes < cached_body_bytes + data.length then .Gone
    else .SendData (.Drain (cached_body_bytes + data.length)) data none
  | producer => producer

/-- The end of the upstream's body, with its trailers or without. -/
def Producer.on_end (producer : Producer) (trailers : Option HeaderMap) : Producer :=
  match producer with
  | .Body _ => .TryFinish trailers
  | .Reading .Origin => .Finish true trailers
  | .Reading (.Drain _) => .Finish false trailers
  | producer => producer

def Producer.on_error : Producer → Producer
  | .Body _ => .AbortFails
  | .Reading .Origin => .OriginFails "upstream body read failed while filling cache"
  | .Reading (.Drain _) => .Gone
  | producer => producer

/-- Who polls the upstream now. -/
def Producer.polls : Producer → Bool
  | .Body _ | .Passing | .Reading _ => true
  | _ => false

/-- `drain_remaining_frames` reads on to the end and does not ask for `is_end_stream`. -/
def Producer.asks_is_end_stream : Producer → Bool
  | .Reading (.Drain _) => false
  | _ => true

/-- A poll of the upstream: `poll_frame` of the body, or the loops of the two tasks. -/
def StreamingFill.poll_frame (fill : StreamingFill) (answer : UpstreamPoll) : StreamingFill :=
  if fill.upstream.ended || !fill.producer.polls then fill
  else
    match answer with
    | .Pending => fill
    | .Frame (.Data data) is_end_stream =>
      let received := fill.upstream.receive (.Data data)
      if is_end_stream && fill.producer.asks_is_end_stream then
        { fill with
          upstream := received.complete none
          producer := fill.producer.on_data fill.plan.max_entry_bytes data (some none) }
      else
        { fill with
          upstream := received
          producer := fill.producer.on_data fill.plan.max_entry_bytes data none }
    | .Frame (.Trailers trailers) _ =>
      { fill with
        upstream := fill.upstream.complete (some trailers)
        producer := fill.producer.on_end (some trailers) }
    | .Error _ =>
      { fill with
        upstream := fill.upstream.fail
        producer := fill.producer.on_error }
    | .End =>
      { fill with
        upstream := fill.upstream.complete none
        producer := fill.producer.on_end none }

/-- The drop of a `StreamingCacheBody`: a body with its writer leaves the rest to a task. -/
def StreamingFill.drop_body (fill : StreamingFill) : StreamingFill :=
  match fill.producer with
  | .Body cached_body_bytes => { fill with producer := .Reading (.Drain cached_body_bytes) }
  | .Passing => { fill with producer := .Gone }
  | _ => fill

/-- The next operation of the producer. A task that sends waits while the queue is full. -/
def StreamingFill.produce (fill : StreamingFill) : StreamingFill :=
  match fill.producer with
  | .TrySendData cached_body_bytes bytes completed =>
    let next_body_size := cached_body_bytes + bytes.length
    if fill.plan.max_entry_bytes < next_body_size then { fill with producer := .AbortFails }
    else if fill.receiver_open && fill.has_room then
      fill.sends (.Data bytes) <|
        match completed with
        | none => .Body next_body_size
        | some trailers => .TryFinish trailers
    else { fill with producer := .AbortFails }
  | .AbortFails =>
    { fill with
      fill_state := fill.fill_state.fail "streaming cache entry exceeded maximum entry bytes"
      producer := .AbortSends }
  | .AbortSends =>
    if fill.receiver_open && fill.has_room then fill.sends .Abort .Passing
    else { fill with producer := .Passing }
  | .TryFinish trailers =>
    if fill.receiver_open && fill.has_room then fill.sends (.Finish trailers) .MarkUpstreamComplete
    else { fill with producer := .Finish false trailers }
  | .SendData task bytes completed =>
    if !fill.receiver_open then
      { fill with
        producer :=
          match task with
          | .Origin => .OriginFails "streaming cache writer channel closed before EOF"
          | .Drain _ => .Gone }
    else if fill.has_room then
      fill.sends (.Data bytes) <|
        match completed with
        | none => .Reading task
        | some trailers => .Finish true trailers
    else fill
  | .Finish reports trailers =>
    if !fill.receiver_open then
      { fill with
        producer :=
          if reports then
            .OriginFails "streaming cache writer channel closed before end-of-stream"
          else .Gone }
    else if fill.has_room then fill.sends (.Finish trailers) .MarkUpstreamComplete
    else fill
  | .MarkUpstreamComplete =>
    { fill with fill_state := fill.fill_state.mark_upstream_complete, producer := .Gone }
  | .OriginFails reason =>
    { fill with fill_state := fill.fill_state.fail reason, producer := .Gone }
  | .Body _ | .Passing | .Reading _ | .Gone => fill

/-! ## The steps of the writer -/

/-- A rename of the temporary file, which has to be there. -/
def StreamingFill.rename_body (fill : StreamingFill) : StreamingFill :=
  { fill with tmp := { fill.tmp with linked := false }, body_path := some .Own }

/-- The texts of the errors are those of the operating system where the operation gives one. -/
def length_mismatch (body_size_bytes expected_body_bytes : Nat) : String :=
  "streamed body length `" ++ toString body_size_bytes ++ "` does not match exact size hint `" ++
    toString expected_body_bytes ++ "`"

/-- `finalize_streaming_cache` before it commits. The marker of a pass is in another file. -/
def StreamingFill.check_size (fill : StreamingFill) : CacheWriter :=
  if fill.plan.max_entry_bytes < fill.body_size_bytes then .RemoveTmp false
  else
    match fill.plan.expected_body_bytes with
    | some expected_body_bytes =>
      if expected_body_bytes ≠ fill.body_size_bytes then
        .Fail (length_mismatch fill.body_size_bytes expected_body_bytes) false
      else .PrepareResponseHead
    | none => .PrepareResponseHead

/-- What an operation outside meets: no error, or the text of one; how many bytes a failed
`write_all` leaves. -/
structure WriteOutcome where
  error : Option String
  left : Nat

/-- The next operation of the writer. A writer that receives waits while the queue is empty and
someone can still send. -/
def StreamingFill.write (fill : StreamingFill) (outcome : WriteOutcome) : StreamingFill :=
  match fill.writer with
  | .Receive =>
    match fill.queue with
    | [] =>
      if fill.producer.holds_sender then fill
      else
        { fill with
          writer := .Fail "streaming cache writer channel closed before end-of-stream" true }
    | message :: queue =>
      { fill with
        queue
        writer :=
          match message with
          | .Data bytes => .WriteAll bytes
          | .Finish trailers => .Flush trailers
          | .Abort => .FlushAborted }
  | .WriteAll bytes =>
    match outcome.error with
    | none =>
      { fill with
        tmp := { fill.tmp with written := fill.tmp.written ++ bytes }
        body_size_bytes := fill.body_size_bytes + bytes.length
        writer := .RecordBytesWritten }
    | some error =>
      { fill with
        tmp := { fill.tmp with written := fill.tmp.written ++ bytes.take outcome.left }
        writer := .Fail error false }
  | .RecordBytesWritten =>
    { fill with
      fill_state := fill.fill_state.record_bytes_written fill.body_size_bytes
      writer := .Receive }
  | .Flush trailers =>
    match outcome.error with
    | none =>
      { fill with
        tmp := { fill.tmp with visible := fill.tmp.written.length }
        writer := .StoreTrailers trailers }
    | some error => { fill with writer := .Fail error false }
  | .StoreTrailers trailers =>
    { fill with
      fill_state := fill.fill_state.store_trailers trailers
      writer := .StoreFinished }
  | .StoreFinished =>
    { fill with fill_state := fill.fill_state.store_finished, writer := .CheckSize }
  | .CheckSize => { fill with writer := fill.check_size }
  | .PrepareResponseHead =>
    match outcome.error with
    | none => { fill with writer := .CreateDir }
    | some error => { fill with writer := .Fail error false }
  | .CreateDir =>
    -- An error here or in the text of the metadata leaves the temporary file.
    { fill with writer := if outcome.error.isNone then .WriteMetadata else .Done }
  | .WriteMetadata =>
    { fill with writer := if outcome.error.isNone then .RenameBody else .RemoveTmp false }
  | .RenameBody =>
    if outcome.error.isNone && fill.tmp.linked then
      { fill.rename_body with writer := .RenameMetadata }
    else { fill with writer := .RemoveTmp false }
  | .RenameMetadata =>
    { fill with writer := if outcome.error.isNone then .UpdateIndex else .RemoveTmp true }
  | .UpdateIndex =>
    { fill with committed := some (fill.plan.entry fill.body_size_bytes), writer := .Done }
  | .Fail reason flushes =>
    { fill with
      fill_state := fill.fill_state.fail reason
      writer := if flushes then .FlushAborted else .RemoveTmp false }
  | .FlushAborted => { fill with writer := .RemoveTmp false }
  | .RemoveTmp remove_final =>
    { fill with
      tmp := { fill.tmp with linked := fill.tmp.linked && outcome.error.isSome }
      writer := if remove_final then .RemoveFinal else .Done }
  | .RemoveFinal =>
    { fill with
      body_path := if outcome.error.isNone then none else fill.body_path
      writer := .Done }
  | .Done => fill

/-- What was written comes to the file some time later, and in order. -/
def StreamingFill.sync (fill : StreamingFill) (count : Nat) : StreamingFill :=
  { fill with
    tmp := { fill.tmp with
      visible := min (fill.tmp.visible + count) fill.tmp.written.length } }

/-- The writer holds the io lock of the hash. -/
def CacheWriter.holds_io_lock : CacheWriter → Bool
  | .CreateDir | .WriteMetadata | .RenameBody | .RenameMetadata | .UpdateIndex => true
  | .RemoveTmp remove_final => remove_final
  | .RemoveFinal => true
  | _ => false

/-- Another store of the same hash renames its file to the path, which takes the lock; a removal
may come without it. -/
def StreamingFill.replace_body (fill : StreamingFill) (content : Option (List UInt8)) :
    StreamingFill :=
  match content with
  | none => { fill with body_path := none }
  | some content =>
    if fill.writer.holds_io_lock then fill
    else { fill with body_path := some (.Other content) }

/-! ## The steps of a reader -/

def TmpFile.content (tmp : TmpFile) : OpenedFile → List UInt8
  | .Own => tmp.written.take tmp.visible
  | .Other content => content

/-- What an operation on the file meets: an error, or how many bytes it may give at once. -/
structure ReadOutcome where
  error : Option IoError
  count : Nat

def ended_before_announced : FillReadError :=
  .Io ⟨.UnexpectedEof, "in-flight cache fill ended before announced bytes became readable"⟩

/-- The loop of `stream_inflight_fill_body` inside of a chunk, at one `read`. -/
def InFlightFillBody.read (body : InFlightFillBody) (content : List UInt8) (chunk_len : Nat)
    (buffer : List UInt8) (count : Nat) : InFlightFillBody :=
  let rest := content.drop (body.offset + buffer.length)
  if rest = [] then { body with phase := .ReadNothing chunk_len buffer }
  else
    let filled := buffer ++ rest.take (min (max 1 count) (chunk_len - buffer.length))
    if filled.length < chunk_len then { body with phase := .Read chunk_len filled }
    else { body with offset := body.offset + chunk_len, phase := .SendChunk filled }

/-- The next operation of the task of a reader. -/
def InFlightFillBody.step (body : InFlightFillBody) (tmp : TmpFile)
    (body_path : Option OpenedFile) (state : CacheFillReadState) (outcome : ReadOutcome) :
    InFlightFillBody :=
  match body.phase with
  | .OpenTmp =>
    match outcome.error with
    | some error => { body with phase := .SendError (.Io error) }
    | none =>
      if tmp.linked then { body with opened := some .Own, phase := .LoadBytesWritten }
      else { body with phase := .AskFinished }
  | .AskFinished =>
    if state.finished then { body with phase := .OpenBody }
    else { body with phase := .SendError (.Io ⟨.NotFound, "No such file or directory"⟩) }
  | .OpenBody =>
    match outcome.error, body_path with
    | none, some file => { body with opened := some file, phase := .LoadBytesWritten }
    | none, none => { body with phase := .SendError (.Io ⟨.NotFound, "No such file or directory"⟩) }
    | some error, _ => { body with phase := .SendError (.Io error) }
  | .LoadBytesWritten =>
    if body.offset < state.bytes_written then
      { body with
        phase := .Read
          (min (state.bytes_written - body.offset) IN_FLIGHT_FILL_READ_CHUNK_BYTES) [] }
    else { body with phase := .LoadError }
  | .Read chunk_len buffer =>
    match outcome.error, body.opened with
    | none, some file => body.read (tmp.content file) chunk_len buffer outcome.count
    | none, none => body
    | some error, _ => { body with phase := .SendError (.Io error) }
  | .ReadNothing chunk_len buffer =>
    if state.finished then { body with phase := .SendError ended_before_announced }
    else { body with phase := .Read chunk_len buffer }
  | .SendChunk buffer =>
    { body with chunks := body.chunks ++ [buffer], phase := .LoadBytesWritten }
  | .LoadError =>
    match state.error with
    | some error =>
      { body with phase := .SendError (.Other
          ("failed to continue reading in-flight cache fill: " ++ error)) }
    | none => { body with phase := .LoadFinished }
  | .LoadFinished =>
    if state.finished then { body with phase := .LockTrailers }
    else { body with phase := .LoadBytesWritten }
  | .LockTrailers =>
    match state.trailers with
    | some trailers => { body with phase := .SendTrailers trailers }
    | none => { body with phase := .Ended }
  | .SendTrailers trailers => { body with last := some (.ok trailers), phase := .Ended }
  | .SendError error => { body with last := some (.error error), phase := .Ended }
  | .Ended | .Dropped => body

/-! ## Runs -/

inductive FillEvent
  | poll_frame (answer : UpstreamPoll)
  | drop_body
  | produce
  | write (outcome : WriteOutcome)
  | sync (count : Nat)
  | replace_body (content : Option (List UInt8))
  | join
  | read (reader : Nat) (outcome : ReadOutcome)
  | drop_reader (reader : Nat)

def FillEvent.is_write : FillEvent → Bool
  | .write _ => true
  | _ => false

def StreamingFill.step (fill : StreamingFill) : FillEvent → StreamingFill
  | .poll_frame answer => fill.poll_frame answer
  | .drop_body => fill.drop_body
  | .produce => fill.produce
  | .write outcome => fill.write outcome
  | .sync count => fill.sync count
  | .replace_body content => fill.replace_body content
  | .join => { fill with readers := fill.readers ++ [.new] }
  | .read reader outcome =>
    { fill with
      readers := fill.readers.modify reader fun body =>
        body.step fill.tmp fill.body_path fill.fill_state outcome }
  | .drop_reader reader =>
    { fill with
      readers := fill.readers.modify reader fun body => { body with phase := .Dropped } }

end rginx.cache.streaming
