import Ledwall.Values.HttpRequest

/-! Where the parser takes a request to end, and when it makes a difference how the request is cut
into segments. -/

namespace Ledwall.Values

open Ledwall.Wire

/-- A sum that wraps in the card's `usize` leaves nothing of the body to wait for. -/
def requestEnd (head : List Byte) : ℕ :=
  if head.length + 4 + parseContentLength head < 2 ^ 32 then
    head.length + 4 + parseContentLength head
  else head.length + 4

/-- Where the parser stops: at the request's end, or with a full buffer. -/
def stop (head : List Byte) : ℕ := min (requestEnd head) MAX_REQUEST

/-- The parser's state behind `m` bytes of a request, until it is complete. -/
def phase (head : List Byte) (m : ℕ) : ParseState :=
  if head.length + 4 ≤ m then .readingBody (parseContentLength head) (head.length + 4)
  else .readingHeaders

/-- The head does not fill the buffer and leave some of the body out of it. -/
def Settled (head : List Byte) : Prop :=
  requestEnd head ≤ MAX_REQUEST ∨ MAX_REQUEST < head.length + 4

/-- Whether the segment that takes the buffer from `m` to `n` bytes completes the request. One that
brings the end of the head does not, if it fills the buffer. -/
def Completes (head : List Byte) (m n : ℕ) : Prop :=
  head.length + 4 ≤ m ∧ stop head ≤ n ∨
    m < head.length + 4 ∧ head.length + 4 ≤ n ∧ requestEnd head ≤ n ∨
    n < head.length + 4 ∧ MAX_REQUEST ≤ n

instance (head : List Byte) (m n : ℕ) : Decidable (Completes head m n) :=
  inferInstanceAs (Decidable (_ ∨ _ ∨ _))

section Numbers

variable {s head pattern : List Byte} {n : ℕ}

lemma parseUsize_lt (h : parseUsize s = some n) : n < 2 ^ 32 := by
  have hfold (l : List Byte) (r : ℕ) (hr : r < 2 ^ 32) (hl : l.foldlM (fun r b =>
      if isDigit b ∧ r * 10 + (b.toNat - 0x30) < 2 ^ 32 then some (r * 10 + (b.toNat - 0x30))
      else none) r = some n) : n < 2 ^ 32 := by
    induction l generalizing r with
    | nil =>
      obtain rfl := Option.some.inj hl
      exact hr
    | cons b l ih =>
      rw [List.foldlM_cons] at hl
      split at hl
      · rename_i hb
        exact ih _ hb.2 hl
      · cases hl
  rw [parseUsize] at h
  split at h
  · cases h
  · exact hfold s 0 (by decide) h

lemma contentLengthAt_lt (h : contentLengthAt head pattern = some n) : n < 2 ^ 32 := by
  obtain ⟨pos, -, rfl⟩ := Option.map_eq_some_iff.mp h
  cases hp : parseUsize ((head.drop (pos + pattern.length)).takeWhile isDigit) with
  | none => decide
  | some n => exact parseUsize_lt hp

lemma parseContentLength_lt (head : List Byte) : parseContentLength head < 2 ^ 32 := by
  rw [parseContentLength]
  cases hn : (contentLengthAt head (ascii "Content-Length: ")).or
      (contentLengthAt head (ascii "content-length: ")) with
  | none => decide
  | some n =>
    rcases Option.or_eq_some_iff.mp hn with h | ⟨-, h⟩
    · exact contentLengthAt_lt h
    · exact contentLengthAt_lt h

lemma le_requestEnd (head : List Byte) : head.length + 4 ≤ requestEnd head := by
  rw [requestEnd]
  split
  · exact Nat.le_add_right _ _
  · exact le_rfl

lemma stop_pos (head : List Byte) : 0 < stop head := by
  have h := le_requestEnd head
  rw [stop, show MAX_REQUEST = 512 from rfl]
  omega

lemma waits_iff {m : ℕ} (hhead : head.length + 4 ≤ m) (hm : m ≤ MAX_REQUEST) :
    (0 < parseContentLength head ∧
      m < (head.length + 4 + parseContentLength head) % 2 ^ 32) ↔ m < requestEnd head := by
  have hlt := parseContentLength_lt head
  have hmax : MAX_REQUEST = 512 := rfl
  rw [requestEnd]
  split
  · rename_i hfits
    rw [Nat.mod_eq_of_lt hfits]
    omega
  · rename_i hwraps
    omega

end Numbers

section Feeding

variable {request head got data : List Byte} {segments : List (List Byte)}

lemma HttpRequest.fill_eq {s : ParseState} (h : got.length ≤ MAX_REQUEST) :
    HttpRequest.fill ⟨got, s⟩ data = (got ++ data).take MAX_REQUEST := by
  rw [HttpRequest.fill, List.take_append, List.take_of_length_le h]

lemma findHeaderEnd_of_prefix (hend : findHeaderEnd request = some head.length)
    (hpre : got <+: request) :
    findHeaderEnd got = if head.length + 4 ≤ got.length then some head.length else none := by
  rw [List.prefix_iff_eq_take.mp hpre, findHeaderEnd, findBytes_take hend]
  have hlen := hpre.length_le
  rw [List.length_take, Nat.min_eq_left hlen]
  rfl

lemma take_head (hhead : head <+: request) (hpre : got <+: request)
    (hlen : head.length + 4 ≤ got.length) : got.take head.length = head := by
  have h : head <+: got := List.prefix_of_prefix_length_le hhead hpre (by omega)
  exact (List.prefix_iff_eq_take.mp h).symm

lemma nextState_phase {buf : List Byte} {m : ℕ} (hend : findHeaderEnd request = some head.length)
    (hhead : head <+: request) (hbuf : buf <+: request) (hmax : buf.length ≤ MAX_REQUEST)
    (hm : m ≤ buf.length) (hlt : m < stop head) :
    HttpRequest.nextState ⟨got, phase head m⟩ buf =
      if Completes head m buf.length then .complete else phase head buf.length := by
  have hfind := findHeaderEnd_of_prefix hend hbuf
  have hle := le_requestEnd head
  rw [stop] at hlt
  by_cases hin : head.length + 4 ≤ m
  · have hwaits := waits_iff hin (hm.trans hmax)
    have hwaits' := waits_iff (hin.trans hm) hmax
    have hcompletes : Completes head m buf.length ↔
        (head.length + 4 + parseContentLength head) % 2 ^ 32 ≤ buf.length ∨
          MAX_REQUEST ≤ buf.length := by
      rw [Completes, stop]
      omega
    rw [HttpRequest.nextState, phase, if_pos hin, phase, if_pos (hin.trans hm)]
    exact if_congr hcompletes.symm rfl rfl
  · rw [HttpRequest.nextState, phase, if_neg hin]
    dsimp only
    rw [hfind]
    by_cases hnow : head.length + 4 ≤ buf.length
    · have hwaits := waits_iff hnow hmax
      rw [if_pos hnow]
      dsimp only
      rw [take_head hhead hbuf hnow, phase, if_pos hnow]
      by_cases hover : requestEnd head ≤ buf.length
      · rw [if_neg (by omega), if_pos (.inr (.inl ⟨by omega, hnow, hover⟩))]
      · rw [if_pos (by omega), if_neg]
        rw [Completes]
        omega
    · rw [if_neg hnow, phase, if_neg hnow]
      apply if_congr _ rfl rfl
      rw [Completes]
      omega

lemma Settled.feed (h : Settled head) (hend : findHeaderEnd request = some head.length)
    (hhead : head <+: request) (hgot : got ++ data <+: request) (hlt : got.length < stop head) :
    HttpRequest.feed ⟨got, phase head got.length⟩ data =
      ⟨(got ++ data).take MAX_REQUEST,
        if stop head ≤ (got ++ data).length then .complete else phase head (got ++ data).length⟩ := by
  have hle := le_requestEnd head
  have hlen : (got ++ data).length = got.length + data.length := List.length_append
  have hfill : ((got ++ data).take MAX_REQUEST).length = min MAX_REQUEST (got ++ data).length :=
    List.length_take
  rw [stop] at hlt ⊢
  rw [HttpRequest.feed, HttpRequest.fill_eq (by omega), nextState_phase hend hhead
    ((List.take_prefix _ _).trans hgot) (List.length_take_le _ _) (by omega)
    (by rwa [stop]), hfill]
  congr 1
  by_cases hover : min (requestEnd head) MAX_REQUEST ≤ (got ++ data).length
  · rw [if_pos hover, if_pos]
    rw [Completes, stop]
    rcases h with h | h <;> omega
  · rw [if_neg hover, if_neg, Nat.min_eq_right (by omega)]
    rw [Completes, stop]
    rcases h with h | h <;> omega

lemma foldl_complete (r : HttpRequest) (h : r.state = .complete) :
    (segments.foldl HttpRequest.feed r).state = .complete := by
  induction segments generalizing r with
  | nil => exact h
  | cons data segments ih =>
    apply ih
    rw [HttpRequest.feed, HttpRequest.nextState, h]

lemma Settled.foldl_feed (h : Settled head) (hend : findHeaderEnd request = some head.length)
    (hhead : head <+: request) (hgot : got ++ segments.flatten <+: request)
    (hlt : got.length < stop head) :
    (segments.foldl HttpRequest.feed ⟨got, phase head got.length⟩).isComplete = true ↔
      stop head ≤ (got ++ segments.flatten).length := by
  induction segments generalizing got with
  | nil =>
    rw [List.flatten_nil, List.append_nil, List.foldl_nil, HttpRequest.isComplete]
    constructor
    · intro hc
      have hc : phase head got.length = .complete := of_decide_eq_true hc
      rw [phase] at hc
      split at hc <;> cases hc
    · intro hle
      exact absurd hlt hle.not_gt
  | cons data segments ih =>
    rw [List.flatten_cons, ← List.append_assoc] at hgot ⊢
    rw [List.foldl_cons, h.feed hend hhead ((List.prefix_append _ _).trans hgot) hlt]
    have hlen : (got ++ data ++ segments.flatten).length =
        (got ++ data).length + segments.flatten.length := List.length_append
    by_cases hover : stop head ≤ (got ++ data).length
    · rw [if_pos hover, HttpRequest.isComplete, foldl_complete _ rfl]
      constructor
      · intro _
        omega
      · intro _
        rfl
    · have hmax : (got ++ data).length ≤ MAX_REQUEST := by
        rw [stop] at hover
        omega
      rw [if_neg hover, List.take_of_length_le hmax]
      exact ih hgot (by omega)

/-- A settled request is handed on as the bytes the buffer has room for, unless more follow one that
stops before. -/
lemma Settled.receive (h : Settled head) (hend : findHeaderEnd request = some head.length)
    (hhead : head <+: request) (hgot : got ++ segments.flatten = request)
    (hlt : got.length < stop head) (hstop : stop head = min request.length MAX_REQUEST) :
    Values.receive ⟨got, phase head got.length⟩ segments =
      some ⟨request.take MAX_REQUEST, .complete⟩ := by
  induction segments generalizing got with
  | nil =>
    rw [List.flatten_nil, List.append_nil] at hgot
    rw [hgot] at hlt
    have hmax : stop head ≤ MAX_REQUEST := min_le_right _ _
    omega
  | cons data segments ih =>
    rw [List.flatten_cons, ← List.append_assoc] at hgot
    have hlen := congrArg List.length hgot
    rw [List.length_append] at hlen
    rw [Values.receive, h.feed hend hhead (hgot ▸ List.prefix_append _ _) hlt,
      HttpRequest.isComplete]
    by_cases hover : stop head ≤ (got ++ data).length
    · have htake : (got ++ data).take MAX_REQUEST = request.take MAX_REQUEST := by
        rcases Nat.le_total request.length MAX_REQUEST with hfits | hfull
        · rw [Nat.min_eq_left hfits] at hstop
          have hnil : segments.flatten = [] := List.eq_nil_of_length_eq_zero (by omega)
          rw [← hgot, hnil, List.append_nil]
        · rw [Nat.min_eq_right hfull] at hstop
          rw [← hgot]
          exact (List.take_append_of_le_length (by omega)).symm
      rw [if_pos hover, if_pos (decide_eq_true rfl), htake]
    · have hmax : (got ++ data).length ≤ MAX_REQUEST := by
        rw [stop] at hover
        omega
      have hphase : phase head (got ++ data).length ≠ .complete := by
        rw [phase]
        split <;> exact ParseState.noConfusion
      rw [if_neg hover, List.take_of_length_le hmax, if_neg fun hc => hphase (of_decide_eq_true hc)]
      exact ih hgot (by omega)

end Feeding

section Cuts

variable {request head body : List Byte}

/-- The segments are the request, cut. -/
def Cut (request : List Byte) (segments : List (List Byte)) : Prop :=
  segments.flatten = request ∧ [] ∉ segments

/-- However it is cut, the request is complete once all of it has come and not before, and it is
handed on whole: the method, the path and the body are then those of the request. -/
def Assembles (request : List Byte) : Prop :=
  ∀ segments, Cut request segments →
    (∀ got, got <+: segments →
      ((got.foldl HttpRequest.feed {}).isComplete = true ↔ got.flatten = request)) ∧
    receive {} segments = some ⟨request, .complete⟩

/-- However it is cut, the same request is handed on. -/
def Terminates (request : List Byte) : Prop :=
  ∃ r, ∀ segments, Cut request segments → receive {} segments = some r

lemma phase_zero (head : List Byte) : phase head 0 = .readingHeaders :=
  if_neg (by omega)

lemma cut_one (h : request ≠ []) : Cut request [request] := by
  refine ⟨List.flatten_singleton, ?_⟩
  intro hmem
  exact h (List.mem_singleton.mp hmem).symm

lemma cut_two {n : ℕ} (hpos : 0 < n) (hn : n < request.length) :
    Cut request [request.take n, request.drop n] := by
  refine ⟨?_, ?_⟩
  · rw [List.flatten_cons, List.flatten_singleton, List.take_append_drop]
  · intro hmem
    rcases List.mem_pair.mp hmem with hnil | hnil
    · have hlen := congrArg List.length hnil
      rw [List.length_take, List.length_nil] at hlen
      omega
    · have hlen := congrArg List.length hnil
      rw [List.length_drop, List.length_nil] at hlen
      omega

lemma feed_first {data : List Byte} (hend : findHeaderEnd request = some head.length)
    (hhead : head <+: request) (hdata : data <+: request) :
    HttpRequest.feed {} data = ⟨data.take MAX_REQUEST,
      if Completes head 0 (min MAX_REQUEST data.length) then .complete
      else phase head (min MAX_REQUEST data.length)⟩ := by
  have hnext := @nextState_phase request head [] (data.take MAX_REQUEST) 0 hend hhead
    ((List.take_prefix MAX_REQUEST data).trans hdata) (List.length_take_le _ _) (Nat.zero_le _)
    (stop_pos head)
  rw [phase_zero, List.length_take] at hnext
  rw [HttpRequest.feed, HttpRequest.fill_eq (Nat.zero_le _), List.nil_append, hnext]

lemma receive_one (hend : findHeaderEnd request = some head.length) (hhead : head <+: request) :
    receive {} [request] =
      if Completes head 0 (min MAX_REQUEST request.length) then
        some ⟨request.take MAX_REQUEST, .complete⟩
      else none := by
  rw [receive, feed_first hend hhead List.prefix_rfl, HttpRequest.isComplete]
  by_cases hc : Completes head 0 (min MAX_REQUEST request.length)
  · rw [if_pos hc, if_pos hc, if_pos (decide_eq_true rfl)]
  · have hphase : phase head (min MAX_REQUEST request.length) ≠ .complete := by
      rw [phase]
      split <;> exact ParseState.noConfusion
    rw [if_neg hc, if_neg hc, if_neg fun h => hphase (of_decide_eq_true h)]
    rfl

lemma receive_two {n : ℕ} (hend : findHeaderEnd request = some head.length)
    (hhead : head <+: request) (hn : requestEnd head = n) (hlen : n ≤ request.length)
    (hmax : n ≤ MAX_REQUEST) :
    receive {} [request.take n, request.drop n] = some ⟨request.take n, .complete⟩ := by
  have hle := le_requestEnd head
  have htake : (request.take n).length = n := by
    rw [List.length_take]
    omega
  have hcompletes : Completes head 0 (min MAX_REQUEST (request.take n).length) := by
    rw [Completes, htake]
    omega
  rw [receive, feed_first hend hhead (List.take_prefix _ _), if_pos hcompletes,
    HttpRequest.isComplete, if_pos (decide_eq_true rfl), List.take_of_length_le (by omega)]

/-- A request for the card's values, the head of one that sets them, and what it sets. -/
def valuesHead : List Byte := ascii "POST /api/values HTTP/1.1\r\nContent-Length: 7"

def valuesBody : List Byte := ascii "\x7b\"a\":1\x7d"

def largeHead : List Byte := ascii "POST /api/values HTTP/1.1\r\nContent-Length: 600"

def largeBody : List Byte := List.replicate 600 0x20

end Cuts

end Ledwall.Values
