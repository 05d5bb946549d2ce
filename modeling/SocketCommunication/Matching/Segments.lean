/-
# What a session reads of the stream

`read_message` takes what `async_read_some` returned, between one byte and the
8192 of `buffer_`, for one message: it parses it, calls `process_request`, and
reads again after the answer.  Nothing is kept of data that does not parse.

`Wire` is the server with a record of the data that one session has read since
its handshake, and of the requests it has passed on.  The server of a `Wire` takes
the steps of `Server.step` (`step_server`), whatever else happens in between.
-/

import SocketCommunication.Lib.Segments
import SocketCommunication.Matching.Step

namespace SocketCommunication
namespace Matching

open Effect Segments

/-- The server, the data that `read_message` of a session was called with, and the
requests it called `process_request` with. -/
structure Wire where
  server : Server
  chunks : List (List UInt8)
  requests : List Json

/-- What happens: the session reads, or anything else. -/
inductive Arrival where
  | read (i : ℕ) (chunk : List UInt8)
  | other (e : Event)

/-- The `i`-th pending operation is a read of `read_message`, on an open socket. -/
def Server.readable (s : Server) (sid i : ℕ) : Bool :=
  match s.completed sid i with
  | some ⟨.readMessage, true⟩ => true
  | _ => false

/-- The event is a read of the session. -/
def Server.reads (s : Server) (sid : ℕ) : Event → Bool
  | .complete k i (.ok _) => k = sid && s.readable k i
  | _ => false

namespace Wire

abbrev WireM := EStateM Exn Wire

/-- A command of the server. -/
def onServer {α : Type} (c : ServerM α) : WireM α := focus Wire.server (fun t w => { w with server := t }) c

section Handlers

variable (env : Env) (parse : List UInt8 → Option Json)

/-- The call of `process_request`. -/
def processRequest (sid : ℕ) (request : Json) : WireM Unit := do
  modify fun w => { w with requests := w.requests ++ [request] }
  onServer (Session.processRequest env sid request)

/-- The handler of `read_message` for the data in `buffer_`. -/
def readMessage (sid : ℕ) (chunk : List UInt8) : WireM Unit := do
  modify fun w => { w with chunks := w.chunks ++ [chunk] }
  tryCatch
    (match parse chunk with
    | none => throw ⟨"parse error"⟩
    | some request => processRequest env sid request)
    fun _ => onServer (Session.writeResponse sid (errorResponse "잘못된 요청 형식"))

/-- Run a handler; an exception that leaves it ends the process. -/
def run (c : WireM Unit) (w : Wire) : Wire :=
  match c w with
  | .ok _ t => t
  | .error _ t => { t with server := t.server.halt }

/-- One step; a read that returns without an error has at least one byte. -/
def step (sid : ℕ) (w : Wire) : Arrival → Wire
  | .read i chunk =>
    if w.server.readable sid i ∧ chunk ≠ [] ∧ chunk.length ≤ 8192 then
      let t := run (readMessage env parse sid chunk) { w with server := w.server.take sid i }
      { t with server := t.server.reap sid }
    else w
  | .other e => if w.server.reads sid e then w else { w with server := w.server.step env e }

end Handlers

/-- Nothing has been read since the handshake. -/
structure Fresh (w : Wire) : Prop where
  chunks : w.chunks = []
  requests : w.requests = []

section Steps

variable {env : Env} {parse : List UInt8 → Option Json} {sid : ℕ} {w : Wire}

theorem erases_onServer {α : Type} (c : ServerM α) : Erases Wire.server (onServer c) c :=
  erases_focus (fun _ _ => rfl) c

/-- The record leaves the handler alone. -/
theorem erases_readMessage (chunk : List UInt8) :
    Erases Wire.server (readMessage env parse sid chunk) (Session.readMessage env sid (parse chunk)) := by
  refine Erases.modify (Erases.tryCatch ?_ fun _ => erases_onServer _) fun _ => rfl
  cases parse chunk with
  | none => exact erases_throw _
  | some request => exact Erases.modify (erases_onServer _) fun _ => rfl

theorem run_server {c : WireM Unit} {d : ServerM Unit} (h : Erases Wire.server c d) :
    (run c w).server = Server.run d w.server := by
  have hd : wp d (fun _ t => t = Server.run d w.server) (fun _ t => t.halt = Server.run d w.server) w.server := by
    unfold wp Server.run
    cases d w.server <;> rfl
  have hc := (h _ _ w).2 hd
  unfold wp at hc
  unfold run
  cases hrun : c w <;> rw [hrun] at hc <;> exact hc

/-- One request for a chunk that parses, and none for another. -/
theorem run_readMessage (chunk : List UInt8) :
    (run (readMessage env parse sid chunk) w).chunks = w.chunks ++ [chunk] ∧
      (run (readMessage env parse sid chunk) w).requests = w.requests ++ (parse chunk).toList := by
  have hspec : wp (readMessage env parse sid chunk)
      (fun _ t => t.chunks = w.chunks ++ [chunk] ∧ t.requests = w.requests ++ (parse chunk).toList)
      (fun _ t => t.chunks = w.chunks ++ [chunk] ∧ t.requests = w.requests ++ (parse chunk).toList) w := by
    rw [readMessage, wp_bind, wp_modify, wp_tryCatch]
    cases parse chunk with
    | none => exact ⟨rfl, (List.append_nil _).symm⟩
    | some request =>
      refine (wp_bind _ _).2 ((wp_modify _).2 (wp_focus.2 (wp_of_forall (fun _ _ => ⟨rfl, rfl⟩) fun _ _ => ?_)))
      exact ⟨rfl, rfl⟩
  unfold wp at hspec
  unfold run
  cases hrun : readMessage env parse sid chunk w <;> rw [hrun] at hspec <;> exact hspec

/-- **The server of a read takes the step of its completion.** -/
theorem step_server {i : ℕ} {chunk : List UInt8} (hread : w.server.readable sid i) (hpos : chunk ≠ [])
    (hfits : chunk.length ≤ 8192) :
    (step env parse sid w (.read i chunk)).server = Server.step env w.server (.complete sid i (.ok (parse chunk))) := by
  rw [step, if_pos ⟨hread, hpos, hfits⟩]
  change Server.reap sid (run (readMessage env parse sid chunk) { w with server := w.server.take sid i }).server = _
  rw [run_server (erases_readMessage chunk)]
  unfold Server.readable at hread
  split at hread
  · rename_i hcompleted
    simp only [Server.step, hcompleted]
    rfl
  · cases hread

/-- What the session has read, and passed on. -/
structure Recorded (parse : List UInt8 → Option Json) (w : Wire) : Prop where
  nonempty : ∀ chunk ∈ w.chunks, chunk ≠ []
  requests : w.requests = w.chunks.filterMap parse

/-- A step reads one chunk at most. -/
theorem Recorded.step (h : Recorded parse w) (a : Arrival) : Recorded parse (Wire.step env parse sid w a) := by
  cases a with
  | read i chunk =>
    rw [Wire.step]
    split_ifs with hguard
    · obtain ⟨hchunks, hrequests⟩ :=
        @run_readMessage env parse sid { w with server := w.server.take sid i } chunk
      refine ⟨fun c hc => ?_, ?_⟩
      · rcases List.mem_append.1 (hchunks ▸ hc) with hold | hnew
        · exact h.nonempty c hold
        · rw [List.mem_singleton.1 hnew]
          exact hguard.2.1
      · refine hrequests.trans ?_
        change _ = (run _ _).chunks.filterMap parse
        rw [hchunks, List.filterMap_append, ← h.requests]
        cases hparse : parse chunk <;> simp [hparse]
    · exact h
  | other e =>
    rw [Wire.step]
    split_ifs
    · exact h
    · exact ⟨h.nonempty, h.requests⟩

theorem Fresh.recorded (h : Fresh w) : Recorded parse w := by
  refine ⟨fun chunk hc => ?_, ?_⟩
  · rw [h.chunks] at hc
    cases hc
  · rw [h.chunks, h.requests, List.filterMap_nil]

/-- **The requests are the messages when every chunk is one message**; and only
then, as long as no message is sent longer than a part of the stream that spells it. -/
theorem requests_eq_iff (h : Fresh w) (as : List Arrival) {texts : List (List UInt8)} {messages : List Json}
    (htexts : texts.map parse = messages.map some)
    (hstream : (as.foldl (step env parse sid) w).chunks.flatten = texts.flatten) :
    ((as.foldl (step env parse sid) w).chunks = texts → (as.foldl (step env parse sid) w).requests = messages) ∧
      ((∀ text ∈ texts, Shortest parse texts.flatten text) →
        ((as.foldl (step env parse sid) w).requests = messages ↔ (as.foldl (step env parse sid) w).chunks = texts)) := by
  have hrecorded : Recorded parse (as.foldl (step env parse sid) w) :=
    Run.foldl_inv (fun _ a hs => hs.step a) as h.recorded
  rw [hrecorded.requests]
  refine ⟨fun hchunks => ?_, filterMap_eq_iff htexts hrecorded.nonempty hstream⟩
  rw [hchunks]
  exact filterMap_of_map htexts

end Steps

/-- The message of a client that is still there, and its text. -/
def ping : Json := .obj [("action", .str "alivePing")]

def pingText : List UInt8 := "\x7b\"action\":\"alivePing\"\x7d".toUTF8.toList

/-- Another message, and its text. -/
def roomsRequest : Json := .obj [("action", .str "listRooms")]

def roomsText : List UInt8 := "\x7b\"action\":\"listRooms\"\x7d".toUTF8.toList

/-- `json::parse` on the parts of the texts. -/
def parseClient (chunk : List UInt8) : Option Json :=
  if chunk = pingText then some ping else if chunk = roomsText then some roomsRequest else none

/-- A client has connected. -/
def connected : Wire := ⟨(Server.connects 0 "192.0.2.1").foldl (Server.step .reliable) .init, [], []⟩

theorem parseClient_pingText : parseClient pingText = some ping := if_pos rfl

theorem parseClient_roomsText : parseClient roomsText = some roomsRequest := by
  rw [parseClient, if_neg (by decide +kernel), if_pos rfl]

/-- No other chunk is parsed. -/
theorem parseClient_eq {chunk text : List UInt8} (ht : text = pingText ∨ text = roomsText)
    (h : parseClient chunk = parseClient text) : chunk = text := by
  have hne : ping ≠ roomsRequest := by simp [ping, roomsRequest]
  rcases ht with rfl | rfl
  · rw [parseClient_pingText, parseClient] at h
    split_ifs at h with hping hrooms
    · exact hping
    · exact absurd (Option.some.inj h).symm hne
  · rw [parseClient_roomsText, parseClient] at h
    split_ifs at h with hping hrooms
    · exact absurd (Option.some.inj h) hne
    · exact hrooms

/-- Every message arrives in one piece; in between it is answered, another client connects,
asks and goes, and time passes. -/
def wholeRun : List Arrival :=
  .read 0 pingText :: .other (.complete 0 0 (.ok none)) :: (Server.connects 1 "192.0.2.2").map .other ++
    .read 0 roomsText :: (Server.sends 1 ping).map .other ++ .other (.complete 0 0 (.ok none)) :: .other (.tick 1000) ::
      [.read 0 pingText, .other (.complete 1 0 .error), .other (.complete 0 0 (.ok none)),
        .read 0 roomsText]

theorem requests_wholeRun : (wholeRun.foldl (step .reliable parseClient 0) connected).requests =
    [ping, roomsRequest, ping, roomsRequest] := by
  refine ((@requests_eq_iff .reliable parseClient 0 connected ⟨rfl, rfl⟩ wholeRun
    [pingText, roomsText, pingText, roomsText] _ ?_ ?_).2 fun text ht piece _ h => ?_).2 ?_
  · simp only [List.map_cons, List.map_nil, parseClient_pingText, parseClient_roomsText]
  · decide +kernel
  · simp only [List.mem_cons, List.not_mem_nil, or_false] at ht
    rw [parseClient_eq (by tauto) h]
  · decide +kernel

/-- It arrives in two. -/
def splitRun : List Arrival :=
  [.read 0 (pingText.take 10), .other (.complete 0 0 (.ok none)), .read 0 (pingText.drop 10)]

/-- The message is lost, and two errors are answered. -/
theorem not_requests_split : ¬ ∀ (as : List Arrival) (texts : List (List UInt8)) (messages : List Json),
    texts.map parseClient = messages.map some →
      (as.foldl (step .reliable parseClient 0) connected).chunks.flatten = texts.flatten →
        (as.foldl (step .reliable parseClient 0) connected).requests = messages := by
  intro h
  have hlost : (splitRun.foldl (step .reliable parseClient 0) connected).requests = [] := by decide +kernel
  have hstream : (splitRun.foldl (step .reliable parseClient 0) connected).chunks.flatten = pingText := by decide +kernel
  have hall := h splitRun [pingText] [ping] (congrArg (· :: []) parseClient_pingText) (hstream.trans (List.append_nil _).symm)
  rw [hlost] at hall
  cases hall

end Wire

end Matching
end SocketCommunication
