import LearnApue.Foundation.Substring
import LearnApue.Gateway.HttpRoute

set_option autoImplicit false

/-!
# Gateway: one connection (`handle_connection` in `http_server.c`)

The request is read into a buffer of a fixed capacity until the header terminator
stands in it.  The terminator and the end of the first line are searched in what
`strstr` sees of the buffer, which ends at the first NUL.  What the connection
comes to depends on the bytes that the client sends and not on the pieces they
arrive in (`requestOutcome_fragmentation`).
-/

namespace LearnApue.Gateway

open LearnApue.Foundation LearnApue.Foundation.Substring

/-! ## Reading the request -/

/-- `HTTP_REQUEST_CAP`. -/
def httpRequestCap : Nat := 8192

/-- `"\r\n"`. -/
def lineTerminator : Bytes := [carriageReturn, newline]

/-- `"\r\n\r\n"`. -/
def headerTerminator : Bytes := [carriageReturn, newline, carriageReturn, newline]

/-- What a call of `recv` meets: a signal, an error or the timeout of the socket,
or bytes that arrived. -/
inductive Arrival where
  | interrupted
  | failed
  | data (bytes : Bytes)
deriving DecidableEq

/-- The reading loop: the filled part of the buffer when the loop ends, or nothing
when the request is incomplete.  `recv` takes no more than the buffer has room
for, and meets the end of the file after the last arrival. -/
def readRequest (request : Bytes) : List Arrival → Option Bytes
  | [] => if request.length < httpRequestCap then none else some request
  | arrival :: rest =>
      if request.length < httpRequestCap then
        match arrival with
        | .interrupted => readRequest request rest
        | .failed => none
        | .data bytes =>
            let received := bytes.take (httpRequestCap - request.length)
            if received = [] then none
            else if strstr (cString (request ++ received)) headerTerminator ≠ none then
              some (request ++ received)
            else readRequest (request ++ received) rest
      else some request

/-! ## The request line -/

/-- `%Ns` of `sscanf`: white space is skipped, then up to `width` bytes are read. -/
def scanToken (width : Nat) (text : Bytes) : Option (Bytes × Bytes) :=
  let text := text.dropWhile isSpace
  let token := (text.takeWhile fun b => !isSpace b).take width
  if token = [] then none else some (token, text.drop token.length)

/-- `sscanf(request, "%7s %2047s %15s %c", ...)`, where it converts exactly three
fields. -/
def scanRequestLine (line : Bytes) : Option (Bytes × Bytes × Bytes) :=
  match scanToken 7 line with
  | none => none
  | some (method, rest) =>
      match scanToken 2047 rest with
      | none => none
      | some (target, rest) =>
          match scanToken 15 rest with
          | none => none
          | some (version, rest) =>
              if rest.dropWhile isSpace = [] then some (method, target, version) else none

/-- What a connection comes to: an error status, or a request for the router. -/
inductive RequestOutcome where
  | error (statusCode : Int) (code message : Bytes)
  | route (method target : Bytes)
deriving DecidableEq

/-- The answer to a request that ends before its header does. -/
def incompleteRequest : RequestOutcome :=
  .error 400 (ascii "bad_request") (ascii "incomplete HTTP request")

/-- The answer to a header that does not fit. -/
def headersTooLarge : RequestOutcome :=
  .error 431 (ascii "headers_too_large") (ascii "HTTP headers exceed the limit")

/-- The answer to a first line that is no request line. -/
def invalidRequestLine : RequestOutcome :=
  .error 400 (ascii "bad_request") (ascii "invalid request line")

/-- What the first line asks for. -/
def requestLine (line : Bytes) : RequestOutcome :=
  match scanRequestLine line with
  | none => invalidRequestLine
  | some (method, target, version) =>
      if version ≠ ascii "HTTP/1.1" ∧ version ≠ ascii "HTTP/1.0" then invalidRequestLine
      else .route method target

/-- What the buffer asks for after the loop. -/
def bufferOutcome (request : Bytes) : RequestOutcome :=
  if request.length = httpRequestCap ∧ strstr (cString request) headerTerminator = none then
    headersTooLarge
  else
    match strstr (cString request) lineTerminator with
    | none => invalidRequestLine
    | some (line, _) => requestLine line

/-- What a connection comes to. -/
def requestOutcome (arrivals : List Arrival) : RequestOutcome :=
  match readRequest [] arrivals with
  | none => incompleteRequest
  | some request => bufferOutcome request

/-! ## The response -/

/-- `respond_error`: the response that is sent, when it can be built. -/
def respondError (statusCode : Int) (code message : Bytes) : Option GwHttpResponse :=
  match errorResponse .cleared statusCode code message with
  | (.ok (), response) => some response
  | (.error _, _) => none

/-- `handle_connection`: the response that is sent. -/
def handleConnection (answers : RouteAnswers) (recording : GwRecordingConfig)
    (arrivals : List Arrival) : Lifecycle (Option GwHttpResponse) :=
  match requestOutcome arrivals with
  | .error statusCode code message => pure (respondError statusCode code message)
  | .route method target => do
      let result ← gwHttpRoute answers recording method target
      match result with
      | (.ok (), response) => pure (some response)
      | (.error _, _) =>
          pure (respondError 500 (ascii "internal_error") (ascii "cannot build HTTP response"))

/-! ## What the loop reads -/

/-- The bytes of an arrival. -/
def Arrival.bytes : Arrival → Bytes
  | .data bytes => bytes
  | _ => []

/-- The bytes that a client sends. -/
def sent (arrivals : List Arrival) : Bytes := arrivals.flatMap Arrival.bytes

/-- An arrival before the end of the file: a signal, or some bytes. -/
def Arrival.Delivers : Arrival → Prop
  | .interrupted => True
  | .failed => False
  | .data bytes => bytes ≠ []

/-- The header ends inside what the buffer can hold of a stream. -/
def HeaderEnds (stream : Bytes) : Prop :=
  headerTerminator <:+: cString (stream.take httpRequestCap)

instance (stream : Bytes) : Decidable (HeaderEnds stream) :=
  inferInstanceAs (Decidable (_ <:+: _))

/-- The first line of a buffer that the whole header stands in is the first line
of every longer buffer. -/
theorem bufferOutcome_of_prefix {request buffer : Bytes}
    (hheader : headerTerminator <:+: cString request) (hbuffer : request <+: buffer) :
    bufferOutcome request = bufferOutcome buffer := by
  have hfinds : ∀ {needle text : Bytes}, needle <:+: text → strstr text needle ≠ none := by
    intro needle text htext heq
    exact strstr_eq_none_iff.mp heq htext
  have hview := cString_prefix hbuffer
  have hline : lineTerminator <:+: cString request := by
    have hterminators : lineTerminator <+: headerTerminator := ⟨lineTerminator, rfl⟩
    exact hterminators.isInfix.trans hheader
  obtain ⟨⟨line, after⟩, hfound⟩ := Option.ne_none_iff_exists'.mp (hfinds hline)
  obtain ⟨after', hfound'⟩ := strstr_of_prefix hfound hview
  unfold bufferOutcome
  rw [if_neg (fun h => hfinds hheader h.2),
    if_neg (fun h => hfinds (hheader.trans hview.isInfix) h.2), hfound, hfound']

/-- How the loop ends, in terms of the whole stream: with the header in the
buffer, with a full buffer, or at the end of the file. -/
theorem readRequest_cases {arrivals : List Arrival} (harrivals : ∀ arrival ∈ arrivals, arrival.Delivers)
    {request : Bytes} (hroom : request.length < httpRequestCap)
    (hopen : ¬ headerTerminator <:+: cString request) :
    (∃ filled, readRequest request arrivals = some filled ∧
        headerTerminator <:+: cString filled ∧
        filled <+: (request ++ sent arrivals).take httpRequestCap) ∨
      (¬ HeaderEnds (request ++ sent arrivals) ∧
        ((httpRequestCap ≤ (request ++ sent arrivals).length ∧
            readRequest request arrivals =
              some ((request ++ sent arrivals).take httpRequestCap)) ∨
          ((request ++ sent arrivals).length < httpRequestCap ∧
            readRequest request arrivals = none))) := by
  induction arrivals generalizing request with
  | nil =>
    refine Or.inr ⟨?_, Or.inr ⟨by simpa [sent] using hroom, by simp [readRequest, hroom]⟩⟩
    unfold HeaderEnds
    rw [show request ++ sent [] = request by simp [sent], List.take_of_length_le hroom.le]
    exact hopen
  | cons arrival rest ih =>
    have hrest : ∀ arrival ∈ rest, arrival.Delivers := fun other hother =>
      harrivals other (List.mem_cons_of_mem _ hother)
    cases arrival with
    | failed => exact (harrivals .failed List.mem_cons_self).elim
    | interrupted =>
      have hsent : sent (.interrupted :: rest) = sent rest := rfl
      have hread : readRequest request (.interrupted :: rest) = readRequest request rest := by
        simp [readRequest, hroom]
      rw [hsent, hread]
      exact ih hrest hroom hopen
    | data bytes =>
      have hsent : sent (.data bytes :: rest) = bytes ++ sent rest := rfl
      have hbytes : bytes ≠ [] := harrivals (.data bytes) List.mem_cons_self
      -- what `recv` takes is the front of the arrival that fits
      have hreceived : bytes.take (httpRequestCap - request.length) ≠ [] := by
        intro h
        rcases List.take_eq_nil_iff.mp h with h | h
        · omega
        · exact hbytes h
      have hfront : request ++ bytes.take (httpRequestCap - request.length) <+:
          (request ++ sent (.data bytes :: rest)).take httpRequestCap := by
        rw [hsent, List.take_append, List.take_of_length_le hroom.le, List.take_append]
        exact (List.prefix_append_right_inj _).mpr (List.prefix_append _ _)
      by_cases hends : headerTerminator <:+:
          cString (request ++ bytes.take (httpRequestCap - request.length))
      · refine Or.inl ⟨_, ?_, hends, hfront⟩
        simp only [readRequest, if_pos hroom, if_neg hreceived]
        rw [if_pos fun h => strstr_eq_none_iff.mp h hends]
      · have hread : readRequest request (.data bytes :: rest) =
            readRequest (request ++ bytes.take (httpRequestCap - request.length)) rest := by
          simp only [readRequest, if_pos hroom, if_neg hreceived]
          rw [if_neg fun h => h (strstr_eq_none_iff.mpr hends)]
        rw [hread]
        by_cases hfits : bytes.length < httpRequestCap - request.length
        · have htake : bytes.take (httpRequestCap - request.length) = bytes :=
            List.take_of_length_le hfits.le
          rw [htake] at hends ⊢
          have hstream : request ++ sent (.data bytes :: rest) = request ++ bytes ++ sent rest := by
            rw [hsent, List.append_assoc]
          rw [hstream]
          exact ih hrest (by rw [List.length_append]; omega) hends
        · -- the buffer is full, and no header ends in it
          have hlength : (request ++ bytes.take (httpRequestCap - request.length)).length =
              httpRequestCap := by
            rw [List.length_append, List.length_take]
            omega
          have hfull : (request ++ sent (.data bytes :: rest)).take httpRequestCap =
              request ++ bytes.take (httpRequestCap - request.length) := by
            refine (hfront.eq_of_length ?_).symm
            have hle := hfront.length_le
            rw [List.length_take] at hle ⊢
            omega
          refine Or.inr ⟨?_, Or.inl ⟨?_, ?_⟩⟩
          · unfold HeaderEnds
            rw [hfull]
            exact hends
          · rw [hsent, List.length_append, List.length_append]
            omega
          · rw [hfull]
            cases rest with
            | nil => simp [readRequest, hlength]
            | cons arrival rest => simp only [readRequest, hlength, lt_irrefl, if_false]

/-- What a connection comes to, from the bytes alone. -/
def streamOutcome (stream : Bytes) : RequestOutcome :=
  if HeaderEnds stream then bufferOutcome (stream.take httpRequestCap)
  else if httpRequestCap ≤ stream.length then headersTooLarge
  else incompleteRequest

theorem requestOutcome_eq {arrivals : List Arrival}
    (harrivals : ∀ arrival ∈ arrivals, arrival.Delivers) :
    requestOutcome arrivals = streamOutcome (sent arrivals) := by
  have hcases := @readRequest_cases arrivals harrivals [] (by decide) (by decide)
  rw [List.nil_append] at hcases
  unfold requestOutcome streamOutcome
  rcases hcases with ⟨filled, hread, hheader, hbuffer⟩ | ⟨hopen, ⟨hfull, hread⟩ | ⟨hshort, hread⟩⟩
  · have hview := cString_prefix hbuffer
    have hends : HeaderEnds (sent arrivals) := hheader.trans hview.isInfix
    rw [hread, if_pos hends]
    exact bufferOutcome_of_prefix hheader hbuffer
  · rw [hread, if_neg hopen, if_pos hfull]
    show bufferOutcome _ = _
    have hnone : strstr (cString ((sent arrivals).take httpRequestCap)) headerTerminator = none :=
      strstr_eq_none_iff.mpr hopen
    unfold bufferOutcome
    rw [if_pos ⟨by rw [List.length_take]; omega, hnone⟩]
  · rw [hread, if_neg hopen, if_neg (by omega)]

/-- The outcome of a connection is the same for every two ways in which one
stream of bytes can arrive before its end. -/
theorem requestOutcome_fragmentation {first second : List Arrival}
    (hfirst : ∀ arrival ∈ first, arrival.Delivers)
    (hsecond : ∀ arrival ∈ second, arrival.Delivers) (hsent : sent first = sent second) :
    requestOutcome first = requestOutcome second := by
  rw [requestOutcome_eq hfirst, requestOutcome_eq hsecond, hsent]

/-- A terminator cut in two, with a signal between the parts and a body after it. -/
theorem requestOutcome_fragmentation_split :
    requestOutcome [.data (ascii "GET / HTTP/1.1\r\n\r"), .interrupted, .data (ascii "\nbody")] =
        requestOutcome [.data (ascii "GET / HTTP/1.1\r\n\r\nbody")] ∧
      requestOutcome [.data (ascii "GET / HTTP/1.1\r\n\r\nbody")] =
        .route (ascii "GET") (ascii "/") := by
  constructor
  · apply requestOutcome_fragmentation
    · intro arrival harrival
      simp only [List.mem_cons, List.not_mem_nil, or_false] at harrival
      rcases harrival with rfl | rfl | rfl
      · exact List.cons_ne_nil _ _
      · trivial
      · exact List.cons_ne_nil _ _
    · intro arrival harrival
      rw [List.mem_singleton.mp harrival]
      exact List.cons_ne_nil _ _
    · rfl
  · decide +kernel

end LearnApue.Gateway
