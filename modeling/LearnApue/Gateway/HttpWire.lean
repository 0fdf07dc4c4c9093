import LearnApue.Foundation.HttpMessage
import LearnApue.Gateway.ChannelsBody
import LearnApue.Gateway.HandleConnection

set_option autoImplicit false
set_option maxRecDepth 2048

/-!
# Gateway: what a client receives (`send_response` in `http_server.c`)

A response is printed as a header and a body and handed to `send` in pieces of any size.
The header of every response that a connection comes to fits its buffer, and the bytes
are those of a framed message (`responseHeaders_message`), from which a client makes the
response again (`readResponse_message`).  So a client has the whole response or none
(`handleConnection_wire`).
-/

namespace LearnApue.Gateway

open LearnApue.Foundation LearnApue.Foundation.HttpMessage

/-! ## The header -/

/-- `reason_phrase`. -/
def reasonPhrase (statusCode : Int) : Bytes :=
  if statusCode = 200 then ascii "OK"
  else if statusCode = 202 then ascii "Accepted"
  else if statusCode = 400 then ascii "Bad Request"
  else if statusCode = 404 then ascii "Not Found"
  else if statusCode = 405 then ascii "Method Not Allowed"
  else if statusCode = 409 then ascii "Conflict"
  else if statusCode = 431 then ascii "Request Header Fields Too Large"
  else ascii "Internal Server Error"

/-- `content_type`. -/
def contentTypeName : GwHttpContentType → Bytes
  | .html => ascii "text/html; charset=utf-8"
  | .json => ascii "application/json"

/-- The sources that the page may load from. -/
def contentPolicy : Bytes :=
  ascii "default-src 'none'; style-src 'unsafe-inline'; script-src 'unsafe-inline'; " ++
    ascii "frame-src http:; connect-src 'self'; base-uri 'none'; form-action 'none'; " ++
    ascii "object-src 'none'; frame-ancestors 'none'"

/-- `content_security_policy`. -/
def contentSecurityPolicy : GwHttpContentType → Bytes
  | .html => ascii "Content-Security-Policy: " ++ contentPolicy ++ ascii "\r\n"
  | .json => []

/-- The size of `headers`. -/
def headersCap : Nat := 1024

/-- What `snprintf` prints. -/
def responseHeaders (response : GwHttpResponse) : Bytes :=
  ascii "HTTP/1.1 " ++ decimalInt response.statusCode ++ ascii " " ++
    reasonPhrase response.statusCode ++ ascii "\r\nContent-Type: " ++
    contentTypeName response.contentType ++ ascii "\r\nContent-Length: " ++
    decimalNat response.bodyLength ++
    ascii "\r\nConnection: close\r\nCache-Control: no-store\r\n" ++
    ascii "X-Content-Type-Options: nosniff\r\nReferrer-Policy: no-referrer\r\n" ++
    contentSecurityPolicy response.contentType ++
    (if response.allowGet ∧ response.allowPost then ascii "Allow: GET, POST\r\n"
      else if response.allowGet then ascii "Allow: GET\r\n" else []) ++
    (if !response.allowGet ∧ response.allowPost then ascii "Allow: POST\r\n" else []) ++
    ascii "\r\n"

/-! ## Sending -/

/-- What a call of `send` does: it is interrupted, it fails or times out, or it takes
some bytes. -/
inductive SendAnswer where
  | interrupted
  | failed
  | took (count : Nat)
  deriving DecidableEq

/-- What a loop of `send` comes to: the bytes that were taken, whether these were all,
and the answers that are left. -/
structure Sending where
  taken : Bytes
  complete : Bool
  answers : List SendAnswer
  deriving DecidableEq

/-- `send_all`.  Behind the last answer the socket takes no more, and `send` times out. -/
def sendAll (data : Bytes) : List SendAnswer → Sending
  | [] => ⟨[], decide (data = []), []⟩
  | answer :: rest =>
      if data = [] then ⟨[], true, answer :: rest⟩
      else
        match answer with
        | .interrupted => sendAll data rest
        | .failed => ⟨[], false, rest⟩
        | .took count =>
            if count = 0 then ⟨[], false, rest⟩
            else
              let later := sendAll (data.drop count) rest
              { later with taken := data.take count ++ later.taken }

/-- `send_response`: the bytes that the socket takes. -/
def sendResponse (response : GwHttpResponse) (answers : List SendAnswer) : Bytes :=
  let headers := responseHeaders response
  if headers.length ≥ headersCap then []
  else
    let first := sendAll headers answers
    if first.complete then
      first.taken ++ (sendAll (response.body.take response.bodyLength) first.answers).taken
    else first.taken

/-! ## What a client makes of it -/

/-- The fields of the policy and of the methods. -/
def policyFields : GwHttpContentType → List HeaderField
  | .html => [⟨ascii "Content-Security-Policy", contentPolicy⟩]
  | .json => []

/-- The field that names the methods of a route. -/
def allowFields (allowGet allowPost : Bool) : List HeaderField :=
  match allowGet, allowPost with
  | true, true => [⟨ascii "Allow", ascii "GET, POST"⟩]
  | true, false => [⟨ascii "Allow", ascii "GET"⟩]
  | false, true => [⟨ascii "Allow", ascii "POST"⟩]
  | false, false => []

/-- The fields that are the same in every response. -/
def fixedFields : List HeaderField :=
  [⟨ascii "Connection", ascii "close"⟩, ⟨ascii "Cache-Control", ascii "no-store"⟩,
    ⟨ascii "X-Content-Type-Options", ascii "nosniff"⟩,
    ⟨ascii "Referrer-Policy", ascii "no-referrer"⟩]

/-- The fields that every response has. -/
def commonFields (contentType : GwHttpContentType) (bodyLength : Nat) : List HeaderField :=
  ⟨ascii "Content-Type", contentTypeName contentType⟩ ::
    ⟨ascii "Content-Length", decimalNat bodyLength⟩ :: fixedFields

/-- The message of a response. -/
def responseMessage (response : GwHttpResponse) : Message where
  startLine := ascii "HTTP/1.1 " ++ decimalInt response.statusCode ++ ascii " " ++
    reasonPhrase response.statusCode
  fields := commonFields response.contentType response.bodyLength ++
    policyFields response.contentType ++ allowFields response.allowGet response.allowPost
  body := response.body.take response.bodyLength

/-- The response of a message, as a client reads it. -/
def readResponse (message : Message) : GwHttpResponse where
  statusCode := (strtoll (message.startLine.drop 9)).value
  allowGet := fieldValue (ascii "Allow") message.fields = some (ascii "GET, POST") ∨
    fieldValue (ascii "Allow") message.fields = some (ascii "GET")
  allowPost := fieldValue (ascii "Allow") message.fields = some (ascii "GET, POST") ∨
    fieldValue (ascii "Allow") message.fields = some (ascii "POST")
  contentType :=
    if fieldValue (ascii "Content-Type") message.fields = some (contentTypeName .html) then .html
    else .json
  body := message.body
  bodyLength := message.body.length

/-- The status codes of the gateway. -/
def answeredCodes : List Int := [200, 202, 400, 404, 405, 409, 431, 500]

/-- What holds of a response that was built. -/
structure Built (response : GwHttpResponse) : Prop where
  length : response.bodyLength = response.body.length
  fits : response.body.length < gwHttpBodyCap
  code : response.statusCode ∈ answeredCodes

/-! ## The header is that of the message -/

theorem linesText_append (first second : List Bytes) :
    linesText (first ++ second) = linesText first ++ linesText second := List.flatMap_append

/-- The text of fields. -/
def fieldsText (fields : List HeaderField) : Bytes := linesText (fields.map HeaderField.line)

theorem fieldsText_append (first second : List HeaderField) :
    fieldsText (first ++ second) = fieldsText first ++ fieldsText second := by
  unfold fieldsText
  rw [List.map_append, linesText_append]

theorem fieldsText_common (contentType : GwHttpContentType) (bodyLength : Nat) :
    fieldsText (commonFields contentType bodyLength) =
      ascii "Content-Type: " ++ contentTypeName contentType ++ ascii "\r\nContent-Length: " ++
        decimalNat bodyLength ++ ascii "\r\nConnection: close\r\nCache-Control: no-store\r\n" ++
        ascii "X-Content-Type-Options: nosniff\r\nReferrer-Policy: no-referrer\r\n" := by
  have htype : ascii "Content-Type: " = ascii "Content-Type" ++ [colon, blank] := by decide
  have hlength : ascii "\r\nContent-Length: " =
      lineEnd ++ (ascii "Content-Length" ++ [colon, blank]) := by decide
  have hrest : ascii "\r\nConnection: close\r\nCache-Control: no-store\r\n" ++
        ascii "X-Content-Type-Options: nosniff\r\nReferrer-Policy: no-referrer\r\n" =
      lineEnd ++ fieldsText fixedFields := by decide +kernel
  rw [List.append_assoc _ _ (ascii "X-Content-Type-Options: nosniff\r\nReferrer-Policy: no-referrer\r\n"),
    hrest, htype, hlength]
  simp only [fieldsText, linesText, commonFields, List.map_cons, List.flatMap_cons,
    HeaderField.line, List.append_assoc]

theorem fieldsText_policy (contentType : GwHttpContentType) :
    fieldsText (policyFields contentType) = contentSecurityPolicy contentType := by
  cases contentType with
  | json => rfl
  | html =>
    have hname : ascii "Content-Security-Policy: " =
        ascii "Content-Security-Policy" ++ [colon, blank] := by decide
    have hend : ascii "\r\n" = lineEnd := by decide
    unfold contentSecurityPolicy
    rw [hname, hend]
    simp only [policyFields, fieldsText, linesText, List.map_cons, List.map_nil, List.flatMap_cons,
      List.flatMap_nil, HeaderField.line, List.append_nil]

theorem fieldsText_allow (allowGet allowPost : Bool) :
    fieldsText (allowFields allowGet allowPost) =
      (if allowGet ∧ allowPost then ascii "Allow: GET, POST\r\n"
        else if allowGet then ascii "Allow: GET\r\n" else []) ++
      (if !allowGet ∧ allowPost then ascii "Allow: POST\r\n" else []) := by
  cases allowGet <;> cases allowPost <;> decide

/-- The printed header is the header of the message. -/
theorem responseHeaders_message (response : GwHttpResponse) :
    responseHeaders response = (responseMessage response).header := by
  have hheader : (responseMessage response).header =
      (responseMessage response).startLine ++ lineEnd ++
        fieldsText (responseMessage response).fields ++ lineEnd := rfl
  have hbreak : ascii "\r\nContent-Type: " = lineEnd ++ ascii "Content-Type: " := by decide
  have hend : ascii "\r\n" = lineEnd := by decide
  rw [hheader]
  unfold responseMessage responseHeaders
  rw [fieldsText_append, fieldsText_append, fieldsText_common, fieldsText_policy, fieldsText_allow,
    hbreak, hend]
  simp only [List.append_assoc]

theorem answeredCodes_bounds : ∀ code ∈ answeredCodes, 0 ≤ code ∧ code < 1000 := by decide

theorem responseHeaders_length {response : GwHttpResponse} (h : Built response) :
    (responseHeaders response).length < headersCap := by
  have hphrases : ∀ code ∈ answeredCodes, (reasonPhrase code).length ≤ 31 := by decide
  have hphrase := hphrases _ h.code
  obtain ⟨hnonneg, hsmall⟩ := answeredCodes_bounds _ h.code
  have hcode : (decimalInt response.statusCode).length ≤ 3 :=
    decimalInt_length_le_of_nonneg (by omega) hnonneg (by omega)
  have hlength : (decimalNat response.bodyLength).length ≤ 6 := by
    refine decimalNat_length_le (by omega) ?_
    have hfits := h.fits
    rw [h.length]
    unfold gwHttpBodyCap at hfits
    omega
  have htype : (contentTypeName response.contentType).length ≤ 24 := by
    cases response.contentType <;> decide
  have hpolicy : (contentSecurityPolicy response.contentType).length ≤ 239 := by
    cases response.contentType <;> simp [contentSecurityPolicy, contentPolicy, ascii]
  have hallow : ((if response.allowGet ∧ response.allowPost then ascii "Allow: GET, POST\r\n"
      else if response.allowGet then ascii "Allow: GET\r\n" else []) ++
      (if !response.allowGet ∧ response.allowPost then ascii "Allow: POST\r\n" else [])).length ≤
        18 := by
    cases response.allowGet <;> cases response.allowPost <;> decide
  have hplain : (ascii "HTTP/1.1 ").length = 9 ∧ (ascii " ").length = 1 ∧
      (ascii "\r\nContent-Type: ").length = 16 ∧ (ascii "\r\nContent-Length: ").length = 18 ∧
      (ascii "\r\nConnection: close\r\nCache-Control: no-store\r\n").length = 46 ∧
      (ascii "X-Content-Type-Options: nosniff\r\nReferrer-Policy: no-referrer\r\n").length = 63 ∧
      (ascii "\r\n").length = 2 := by simp [ascii]
  obtain ⟨h1, h2, h3, h4, h5, h6, h7⟩ := hplain
  unfold responseHeaders headersCap
  simp only [List.length_append] at hallow ⊢
  omega

/-- The length field is told by its line. -/
theorem plain_length (bodyLength : Nat) :
    HeaderField.Plain ⟨ascii "Content-Length", decimalNat bodyLength⟩ := by
  have hdigit : ∀ b ∈ decimalNat bodyLength, isDigit b = true := fun b hb => isDigit_of_mem_decimalNat hb
  have hname : colon ∉ ascii "Content-Length" := by decide
  have hfront : carriageReturn ∉ ascii "Content-Length" ++ [colon, blank] := by decide
  refine ⟨hname, fun hhead => ?_, fun hmem => ?_⟩
  · have hblank := hdigit blank (List.mem_of_head? hhead)
    exact absurd hblank (by decide)
  · rcases List.mem_append.mp hmem with hmem | hvalue
    · exact hfront hmem
    · exact absurd (hdigit carriageReturn hvalue) (by decide)

theorem responseMessage_startLine {response : GwHttpResponse} (h : Built response) :
    IsLine (responseMessage response).startLine := by
  have hphrases : ∀ code ∈ answeredCodes, carriageReturn ∉ reasonPhrase code := by decide
  have hdigits : carriageReturn ∉ decimalInt response.statusCode := by
    rw [decimalInt_of_nonneg (answeredCodes_bounds _ h.code).1]
    intro hmem
    exact absurd (isDigit_of_mem_decimalNat hmem) (by decide)
  have hversion : ascii "HTTP/1.1 " ≠ [] ∧ carriageReturn ∉ ascii "HTTP/1.1 " := by decide
  have hblank : carriageReturn ∉ ascii " " := by decide
  unfold responseMessage
  constructor
  · simp [hversion.1]
  · simp only [List.mem_append, not_or]
    exact ⟨⟨⟨hversion.2, hdigits⟩, hblank⟩, hphrases _ h.code⟩

/-- Every response is a framed message. -/
theorem responseMessage_framed {response : GwHttpResponse} (h : Built response) :
    (responseMessage response).Framed := by
  have hbody : (responseMessage response).body = response.body := by
    change response.body.take response.bodyLength = _
    rw [h.length, List.take_length]
  refine ⟨responseMessage_startLine h, ?_, ?_⟩
  · have hpolicy : ∀ contentType, ∀ field ∈ policyFields contentType, field.Plain := by
      intro contentType
      cases contentType <;> decide +kernel
    have hallow : ∀ allowGet allowPost, ∀ field ∈ allowFields allowGet allowPost, field.Plain := by
      decide +kernel
    have hfixed : ∀ field ∈ fixedFields, field.Plain := by decide +kernel
    have htype : ∀ contentType,
        HeaderField.Plain ⟨ascii "Content-Type", contentTypeName contentType⟩ := by
      intro contentType
      cases contentType <;> decide +kernel
    intro field hfield
    rcases List.mem_append.mp hfield with hfield | hfield
    · rcases List.mem_append.mp hfield with hfield | hfield
      · rcases List.mem_cons.mp hfield with rfl | hfield
        · exact htype _
        · rcases List.mem_cons.mp hfield with rfl | hfield
          · exact plain_length _
          · exact hfixed field hfield
      · exact hpolicy _ field hfield
    · exact hallow _ _ field hfield
  · rw [hbody, ← h.length]
    unfold announced responseMessage commonFields
    rw [List.cons_append, List.cons_append, fieldValue_cons_of_ne (by decide), List.cons_append,
      List.cons_append, fieldValue_cons_self, Option.bind_some, readNumber_decimalNat]

/-! ## A client reads the response -/

/-- The methods stand in a field that no other is taken for. -/
theorem fieldValue_allow (response : GwHttpResponse) :
    fieldValue (ascii "Allow") (responseMessage response).fields =
      fieldValue (ascii "Allow") (allowFields response.allowGet response.allowPost) := by
  have hfixed : ∀ rest, fieldValue (ascii "Allow") (fixedFields ++ rest) =
      fieldValue (ascii "Allow") rest := by
    intro rest
    unfold fixedFields
    simp only [List.cons_append, List.nil_append]
    rw [fieldValue_cons_of_ne (by decide), fieldValue_cons_of_ne (by decide),
      fieldValue_cons_of_ne (by decide), fieldValue_cons_of_ne (by decide)]
  have hpolicy : ∀ contentType rest, fieldValue (ascii "Allow") (policyFields contentType ++ rest) =
      fieldValue (ascii "Allow") rest := by
    intro contentType rest
    cases contentType with
    | json => rfl
    | html => exact fieldValue_cons_of_ne (by decide) contentPolicy rest
  unfold responseMessage commonFields
  simp only [List.cons_append, List.append_assoc]
  rw [fieldValue_cons_of_ne (by decide), fieldValue_cons_of_ne (by decide), hfixed, hpolicy]

/-- A client makes the response again from its message. -/
theorem readResponse_message {response : GwHttpResponse} (h : Built response) :
    readResponse (responseMessage response) = response := by
  have hbody : (responseMessage response).body = response.body := by
    change response.body.take response.bodyLength = _
    rw [h.length, List.take_length]
  have hstatus : (strtoll ((responseMessage response).startLine.drop 9)).value =
      response.statusCode := by
    have hstart : (responseMessage response).startLine =
        ascii "HTTP/1.1 " ++ (decimalInt response.statusCode ++
          (blank :: reasonPhrase response.statusCode)) := by
      change ascii "HTTP/1.1 " ++ _ ++ ascii " " ++ _ = _
      rw [List.append_assoc, List.append_assoc]
      rfl
    have hbounds : ∀ code ∈ answeredCodes, -2 ^ 63 ≤ code ∧ code < 2 ^ 63 := by decide
    obtain ⟨hlow, hhigh⟩ := hbounds _ h.code
    rw [hstart, List.drop_left' (by decide),
      strtoll_decimalInt hlow hhigh (endsNumeral_cons (by decide) _)]
  have htype : (if fieldValue (ascii "Content-Type") (responseMessage response).fields =
      some (contentTypeName .html) then GwHttpContentType.html else .json) =
        response.contentType := by
    have hfield : fieldValue (ascii "Content-Type") (responseMessage response).fields =
        some (contentTypeName response.contentType) := fieldValue_cons_self _ _ _
    rw [hfield]
    cases response.contentType <;> decide
  have hallow : ∀ allowGet allowPost, ∀ value,
      fieldValue (ascii "Allow") (allowFields allowGet allowPost) = value →
      decide (value = some (ascii "GET, POST") ∨ value = some (ascii "GET")) = allowGet ∧
        decide (value = some (ascii "GET, POST") ∨ value = some (ascii "POST")) = allowPost := by
    rintro allowGet allowPost _ rfl
    cases allowGet <;> cases allowPost <;> decide
  obtain ⟨hget, hpost⟩ := hallow _ _ _ (fieldValue_allow response).symm
  unfold readResponse
  rw [hstatus, htype, hbody, ← h.length]
  simp only [hget, hpost]

/-! ## What the socket takes -/

/-- A call of `send` that does not end the loop. -/
def SendAnswer.Goes : SendAnswer → Prop
  | .interrupted => True
  | .failed => False
  | .took count => count ≠ 0

/-- Whether a call of `send` takes bytes. -/
def SendAnswer.takes : SendAnswer → Bool
  | .took _ => true
  | _ => false

/-- The socket takes a front of the data, and reports success exactly when it is all. -/
theorem sendAll_taken (data : Bytes) (answers : List SendAnswer) :
    (sendAll data answers).taken <+: data ∧
      ((sendAll data answers).complete = true ↔ (sendAll data answers).taken = data) := by
  induction answers generalizing data with
  | nil => exact ⟨List.nil_prefix, by simp [sendAll, eq_comm]⟩
  | cons answer rest ih =>
    rw [sendAll.eq_def]
    dsimp only
    split
    · rename_i hempty
      exact ⟨List.nil_prefix, by simp [hempty]⟩
    · rename_i hdata
      have hnone : ∀ left, (Sending.mk [] false left).taken <+: data ∧
          ((Sending.mk [] false left).complete = true ↔ (Sending.mk [] false left).taken = data) :=
        fun left => ⟨List.nil_prefix, by simpa using Ne.symm hdata⟩
      cases answer with
      | interrupted => exact ih data
      | failed => exact hnone rest
      | took count =>
        dsimp only
        split
        · exact hnone rest
        · obtain ⟨hfront, hcomplete⟩ := ih (data.drop count)
          have hcut := List.take_append_drop count data
          constructor
          · have hmore := (List.prefix_append_right_inj (data.take count)).mpr hfront
            rwa [hcut] at hmore
          · rw [hcomplete]
            constructor
            · intro h
              rw [h, hcut]
            · intro h
              exact List.append_cancel_left (h.trans hcut.symm)

/-- While no call fails the loop goes on, and as many calls that take bytes are left as
the data does not need. -/
theorem sendAll_goes {answers : List SendAnswer} (hgoes : ∀ answer ∈ answers, answer.Goes)
    {data : Bytes} (henough : data.length ≤ answers.countP SendAnswer.takes) :
    (sendAll data answers).complete = true ∧
      (sendAll data answers).answers <:+ answers ∧
      answers.countP SendAnswer.takes ≤
        data.length + (sendAll data answers).answers.countP SendAnswer.takes := by
  induction answers generalizing data with
  | nil =>
    have hempty : data = [] := List.length_eq_zero_iff.mp (Nat.le_zero.mp henough)
    simp [sendAll, hempty]
  | cons answer rest ih =>
    have hrest : ∀ other ∈ rest, other.Goes :=
      fun other hother => hgoes other (List.mem_cons_of_mem _ hother)
    have hgo := hgoes answer List.mem_cons_self
    rw [sendAll.eq_def]
    dsimp only
    split
    · rename_i hempty
      exact ⟨rfl, List.suffix_refl _, by simp [hempty]⟩
    · rename_i hdata
      cases answer with
      | failed => exact hgo.elim
      | interrupted =>
        obtain ⟨hcomplete, hsuffix, hleft⟩ := ih hrest henough
        exact ⟨hcomplete, hsuffix.trans (List.suffix_cons _ _), hleft⟩
      | took count =>
        have hcount : count ≠ 0 := hgo
        have hpos := List.length_pos_of_ne_nil hdata
        have hcons : (SendAnswer.took count :: rest).countP SendAnswer.takes =
            rest.countP SendAnswer.takes + 1 := List.countP_cons_of_pos rfl
        have hdrop : (data.drop count).length + 1 ≤ data.length := by
          rw [List.length_drop]
          omega
        dsimp only
        rw [if_neg hcount, hcons]
        have henoughRest : (data.drop count).length ≤ rest.countP SendAnswer.takes := by omega
        obtain ⟨hcomplete, hsuffix, hleft⟩ := ih hrest henoughRest
        exact ⟨hcomplete, hsuffix.trans (List.suffix_cons _ _), by simp only; omega⟩

/-- What a client can have of a response. -/
structure Received (response : GwHttpResponse) (wire : Bytes) : Prop where
  front : wire <+: (responseMessage response).text
  whole : wire = (responseMessage response).text →
    HttpMessage.read wire = some (responseMessage response, [])
  broken : wire ≠ (responseMessage response).text → HttpMessage.read wire = none

/-- A response is received whole, or not at all; and it is when no call of `send` fails
and enough of them take bytes. -/
theorem sendResponse_received {response : GwHttpResponse} (h : Built response)
    (answers : List SendAnswer) :
    Received response (sendResponse response answers) ∧
      ((∀ answer ∈ answers, answer.Goes) →
        (responseMessage response).text.length ≤ answers.countP SendAnswer.takes →
        sendResponse response answers = (responseMessage response).text) := by
  have hframed := responseMessage_framed h
  have htext : (responseMessage response).text =
      responseHeaders response ++ response.body.take response.bodyLength := by
    rw [responseHeaders_message]
    rfl
  have hfits : ¬ (responseHeaders response).length ≥ headersCap :=
    Nat.not_le_of_lt (responseHeaders_length h)
  have hwire : sendResponse response answers =
      if (sendAll (responseHeaders response) answers).complete then
        (sendAll (responseHeaders response) answers).taken ++
          (sendAll (response.body.take response.bodyLength)
            (sendAll (responseHeaders response) answers).answers).taken
      else (sendAll (responseHeaders response) answers).taken := if_neg hfits
  obtain ⟨hheader, hdone⟩ := sendAll_taken (responseHeaders response) answers
  have hfront : sendResponse response answers <+: (responseMessage response).text := by
    rw [hwire, htext]
    split
    · rename_i hcomplete
      rw [hdone.mp hcomplete]
      exact (List.prefix_append_right_inj _).mpr (sendAll_taken _ _).1
    · exact hheader.trans (List.prefix_append _ _)
  refine ⟨⟨hfront, ?_, read_front hframed hfront⟩, fun hgoes henough => ?_⟩
  · intro hwhole
    have hread := read_text hframed []
    rwa [List.append_nil, ← hwhole] at hread
  · rw [htext, List.length_append] at henough
    obtain ⟨hcomplete, hsuffix, hleft⟩ := @sendAll_goes answers hgoes
      (responseHeaders response) (by omega)
    obtain ⟨hbody, -, -⟩ := @sendAll_goes (sendAll (responseHeaders response) answers).answers
      (fun answer hanswer => hgoes answer (hsuffix.subset hanswer))
      (response.body.take response.bodyLength) (by omega)
    rw [hwire, if_pos hcomplete, hdone.mp hcomplete, (sendAll_taken _ _).2.mp hbody, htext]

end LearnApue.Gateway
