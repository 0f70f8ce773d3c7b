import Ledwall.Values.Segments
import Ledwall.Values.ValuePush

/-! The host's request reaches its handler whole, with the last of its bytes, however it is cut. -/

namespace Ledwall.Values

open Ledwall.Wire

section Receiving

variable {head body got : List Byte} {segments : List (List Byte)}

/-- The parser's state behind a prefix of `m` bytes of a request. -/
def stateAt (headerEnd n m : ℕ) : ParseState :=
  if m = headerEnd + 4 + n then .complete
  else if headerEnd + 4 ≤ m then .readingBody n (headerEnd + 4)
  else .readingHeaders

/-- A request that fits the buffer and whose head says where it ends. -/
structure Framed (head body : List Byte) : Prop where
  headerEnd : findHeaderEnd (head ++ (crlf ++ crlf) ++ body) = some head.length
  contentLength : parseContentLength head = body.length
  body_pos : 0 < body.length
  fits : (head ++ (crlf ++ crlf) ++ body).length ≤ MAX_REQUEST

lemma Framed.length (_ : Framed head body) :
    (head ++ (crlf ++ crlf) ++ body).length = head.length + 4 + body.length := by
  rw [List.length_append, List.length_append]
  rfl

lemma Framed.requestEnd (h : Framed head body) :
    requestEnd head = head.length + 4 + body.length := by
  have hfits := h.fits
  rw [h.length, show MAX_REQUEST = 512 from rfl] at hfits
  rw [Values.requestEnd, h.contentLength, if_pos (by omega)]

lemma Framed.receive (h : Framed head body)
    (hgot : got ++ segments.flatten = head ++ (crlf ++ crlf) ++ body)
    (hlt : got.length < head.length + 4 + body.length) :
    Values.receive ⟨got, stateAt head.length body.length got.length⟩ segments =
      some ⟨head ++ (crlf ++ crlf) ++ body, .complete⟩ := by
  have hfits := h.fits
  have hlen := h.length
  have hsettled : Settled head := by
    left
    rw [h.requestEnd]
    omega
  have hstop : stop head = head.length + 4 + body.length := by
    rw [stop, h.requestEnd]
    omega
  have hstate : stateAt head.length body.length got.length = phase head got.length := by
    rw [stateAt, phase, h.contentLength, if_neg hlt.ne]
  have hhead : head <+: head ++ (crlf ++ crlf) ++ body :=
    (List.prefix_append head (crlf ++ crlf)).trans (List.prefix_append _ body)
  have hwhole := hsettled.receive h.headerEnd hhead hgot (by omega) (by omega)
  rwa [List.take_of_length_le hfits, ← hstate] at hwhole

end Receiving

section Route

variable {host version body : List Byte}

lemma framed_request (hhost : 0x0D ∉ host) (hversion : 0x0D ∉ version) (hpos : 0 < body.length)
    (hfits : (request host version body).length ≤ MAX_REQUEST) :
    Framed (joinLines (headLines host version body.length)) body where
  headerEnd := findHeaderEnd_joinLines (headLines_line hhost hversion)
  contentLength := by
    apply parseContentLength_head
    rw [request, List.length_append, show MAX_REQUEST = 512 from rfl] at hfits
    omega
  body_pos := hpos
  fits := hfits

lemma route_request (h : Framed (joinLines (headLines host version body.length)) body)
    (s : ParseState) : HttpRequest.method ⟨request host version body, s⟩ = .post ∧
      HttpRequest.path ⟨request host version body, s⟩ = ascii "/api/values" ∧
      HttpRequest.bodyStr ⟨request host version body, s⟩ = fromUtf8 body := by
  obtain ⟨rest, hrest⟩ := joinLines_headLines host version body.length
  have hline : ascii "POST /api/values HTTP/1.1\r\nAccept-Encoding: identity\r\nContent-Length: " =
      ascii "POST " ++ (ascii "/api/values" ++
        0x20 :: ascii "HTTP/1.1\r\nAccept-Encoding: identity\r\nContent-Length: ") := by
    decide +kernel
  obtain ⟨rest', hrest'⟩ : ∃ rest', request host version body =
      ascii "POST " ++ (ascii "/api/values" ++ 0x20 :: rest') := by
    rw [request, hrest, hline]
    simp only [List.append_assoc, List.cons_append]
    exact ⟨_, rfl⟩
  have hmethod : HttpRequest.method ⟨request host version body, s⟩ = .post := by
    rw [HttpRequest.method]
    dsimp only
    rw [hrest', if_neg, if_pos (List.prefix_append _ _)]
    intro hget
    have hshort := List.prefix_of_prefix_length_le hget
      (List.prefix_append (ascii "POST ") (ascii "/api/values" ++ 0x20 :: rest')) (by decide)
    exact absurd hshort (by decide)
  refine ⟨hmethod, ?_, ?_⟩
  · have hpath : ∀ b ∈ ascii "/api/values", decide (b ≠ 0x20 ∧ b ≠ 0x0D) = true := by decide +kernel
    have hvalid : validUtf8 (ascii "/api/values") = true := by decide +kernel
    rw [HttpRequest.path, hmethod]
    dsimp only
    rw [HttpRequest.pathFrom]
    dsimp only
    rw [hrest', List.drop_left' (by decide), List.takeWhile_append_of_pos hpath,
      List.takeWhile_cons_of_neg (by decide), List.append_nil, if_pos hvalid]
  · rw [HttpRequest.bodyStr]
    dsimp only
    rw [request, h.headerEnd]
    dsimp only
    rw [List.drop_left']
    rw [List.length_append]
    rfl

end Route

end Ledwall.Values
