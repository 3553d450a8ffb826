import BpfAgent.Lib.Text
import BpfAgent.Metrics.Utf8

/-!
# The metrics server

A connection is answered after a single read, with the metrics if the path in
the first line of what has arrived is `/metrics`.  TCP may deliver a request in
pieces, and the path of a piece need not be the path of the request.

The listener and reads or writes that fail are left out.
-/

namespace BpfAgent.Metrics

open Uprobe (fromUtf8Lossy)

def bufferSize : Nat := 4096

def read (stream : List (List UInt8)) : List UInt8 :=
  (stream.head?.getD []).take bufferSize

def requestPath (buffer : List UInt8) : List Char :=
  let request := fromUtf8Lossy buffer
  let methodLine := (Text.lines request).head?.getD []
  (Text.splitWhitespace methodLine)[1]?.getD ['/']

/-- `encoded` is what the encoder makes of the metrics in the registry. -/
def handleMetricsResponse (encoded : Except String (List UInt8)) : Except String String :=
  encoded.map fun responseBuffer =>
    "HTTP/1.1 200 OK\r\nContent-Type: text/plain; charset=utf-8\r\nContent-Length: " ++
      toString responseBuffer.length ++ "\r\n\r\n" ++
      String.ofList (fromUtf8Lossy responseBuffer)

def handleNotFoundResponse : String :=
  "HTTP/1.1 404 Not Found\r\nContent-Type: text/plain\r\nContent-Length: 9\r\n\r\nNot Found"

/-- What is written to the stream, if anything. -/
def handleHttpRequest (encoded : Except String (List UInt8)) (stream : List (List UInt8)) :
    Except String (Option String) :=
  let buffer := read stream
  if buffer = [] then .ok none
  else if requestPath buffer = "/metrics".toList then (handleMetricsResponse encoded).map some
  else .ok (some handleNotFoundResponse)

/-- A request that fits into the buffer and has a complete first line. -/
structure Request where
  bytes : List UInt8
  bounded : bytes.length ≤ bufferSize
  complete : 0x0a ∈ bytes

/-- The pieces in which a request arrives. -/
structure Delivery (request : Request) where
  first : List UInt8
  later : List (List UInt8)
  nonempty : ∀ chunk ∈ first :: later, chunk ≠ []
  whole : first ++ later.flatten = request.bytes

def Delivery.chunks {request : Request} (delivery : Delivery request) : List (List UInt8) :=
  delivery.first :: delivery.later

def Delivery.atOnce (request : Request) : Delivery request where
  first := request.bytes
  later := []
  nonempty := by
    intro chunk member
    rw [List.mem_singleton.mp member]
    exact List.ne_nil_of_mem request.complete
  whole := List.append_nil _

@[simp]
theorem Delivery.atOnce_first (request : Request) : (atOnce request).first = request.bytes := rfl

/-- The bytes of `/metrics`. -/
def metricsPath : List UInt8 := [0x2f, 0x6d, 0x65, 0x74, 0x72, 0x69, 0x63, 0x73]

/-- Behind these bytes the path of the request begins: they have one field and
whitespace behind it, all in the first line. -/
def LeadsToPath (front : List UInt8) : Prop :=
  '\n' ∉ fromUtf8Lossy front ∧ (Text.splitWhitespace (fromUtf8Lossy front)).length = 1 ∧
    Text.endsBlank (fromUtf8Lossy front) = true

/-- In front of these bytes a path ends. -/
def EndsPath (back : List UInt8) : Prop :=
  back = [] ∨ Text.startsBlank (fromUtf8Lossy back) = true

/-- The path begins with `/metrics`, between these bytes. -/
def PathAt (bytes front back : List UInt8) : Prop :=
  bytes = front ++ (metricsPath ++ back) ∧ LeadsToPath front

/-- The first piece of a request shows whether its path is `/metrics`.  If it
is, the path has arrived, and behind it nothing or a whole character; if the
path goes on, the piece does not end just there. -/
def KeepsPath (request first : List UInt8) : Prop :=
  ∀ front back, PathAt request front back →
    (EndsPath back → ∃ more, first = front ++ (metricsPath ++ more) ∧ EndsPath more) ∧
      (¬EndsPath back → first ≠ front ++ metricsPath)

theorem metricsPath_ascii : ∀ byte ∈ metricsPath, byte < 0x80 := by
  have all : metricsPath.all (· < 0x80) = true := by decide
  simpa using all

theorem asciiText_metricsPath : asciiText metricsPath = "/metrics".toList := by decide

theorem requestPath_eq_metrics_iff {bytes : List UInt8} :
    requestPath bytes = "/metrics".toList ↔
      ∃ front back, PathAt bytes front back ∧ EndsPath back := by
  have solid : Text.Solid "/metrics".toList := by decide
  have second : requestPath bytes = "/metrics".toList ↔
      (Text.splitWhitespace ((Text.lines (fromUtf8Lossy bytes)).head?.getD []))[1]? =
        some "/metrics".toList := by
    unfold requestPath
    dsimp only
    cases (Text.splitWhitespace ((Text.lines (fromUtf8Lossy bytes)).head?.getD []))[1]? with
    | none => decide
    | some path => rw [Option.getD_some, Option.some.injEq]
  rw [second, Text.getElem?_first_line_iff solid (by decide), ← asciiText_metricsPath]
  constructor
  · rintro ⟨before, after, text, line, count, ends, starts⟩
    obtain ⟨front, back, rfl, rfl, rfl⟩ := split_at_word metricsPath_ascii (by decide) text
    have nonempty : fromUtf8Lossy front ≠ [] := by
      intro empty
      rw [empty] at count
      cases count
    exact ⟨front, back, ⟨rfl, line, count, ends.resolve_left nonempty⟩,
      starts.imp_left fromUtf8Lossy_eq_nil_iff.mp⟩
  · rintro ⟨front, back, ⟨rfl, line, count, ends⟩, starts⟩
    exact ⟨fromUtf8Lossy front, fromUtf8Lossy back,
      fromUtf8Lossy_append_word metricsPath_ascii (by decide) _ _, line, count, .inr ends,
      starts.imp_left fromUtf8Lossy_eq_nil_iff.mpr⟩

theorem LeadsToPath.eq_nil_of_append {front more rest back : List UInt8}
    (leads : LeadsToPath front) (longer : LeadsToPath (front ++ more))
    (continues : metricsPath ++ rest = more ++ back) : more = [] := by
  cases more with
  | nil => rfl
  | cons byte more =>
      obtain ⟨slash, -⟩ := List.cons.inj continues
      subst slash
      have count := longer.2.1
      have text : fromUtf8Lossy (front ++ 0x2f :: more) =
          fromUtf8Lossy front ++ '/' :: fromUtf8Lossy more := by
        rw [fromUtf8Lossy_append_ascii (by decide), fromUtf8Lossy_ascii (by decide)]
        rfl
      rw [text, Text.splitWhitespace_append_of_endsBlank leads.2.2, List.length_append,
        leads.2.1] at count
      have field : Text.splitWhitespace ('/' :: fromUtf8Lossy more) ≠ [] :=
        Text.splitWhitespace_ne_nil (by decide) List.mem_cons_self
      have := List.length_pos_iff.mpr field
      omega

theorem PathAt.unique {bytes front back otherFront otherBack : List UInt8}
    (path : PathAt bytes front back) (other : PathAt bytes otherFront otherBack) :
    front = otherFront ∧ back = otherBack := by
  obtain ⟨split, leads⟩ := path
  obtain ⟨otherSplit, otherLeads⟩ := other
  have same := split.symm.trans otherSplit
  have fronts : front = otherFront := by
    rcases List.append_eq_append_iff.mp same with ⟨more, rfl, rest⟩ | ⟨more, rfl, rest⟩
    · rw [leads.eq_nil_of_append otherLeads rest, List.append_nil]
    · rw [otherLeads.eq_nil_of_append leads rest, List.append_nil]
  subst fronts
  exact ⟨rfl, List.append_cancel_left (List.append_cancel_left same)⟩

theorem EndsPath.append {back : List UInt8} (ends : EndsPath back) (nonempty : back ≠ [])
    (rest : List UInt8) : EndsPath (back ++ rest) := by
  have starts := ends.resolve_left nonempty
  rw [Text.startsBlank, Option.any_eq_true] at starts
  obtain ⟨character, head, blank⟩ := starts
  have proper : character ≠ Uprobe.replacement := by
    rintro rfl
    exact absurd blank (by decide)
  right
  rw [Text.startsBlank, head_fromUtf8Lossy_append head proper rest, Option.any_some, blank]

theorem PathAt.append {bytes front back : List UInt8} (path : PathAt bytes front back)
    (rest : List UInt8) : PathAt (bytes ++ rest) front (back ++ rest) :=
  ⟨by rw [path.1, List.append_assoc, List.append_assoc], path.2⟩

/-- The first piece of a request asks for the metrics like the whole request
exactly if it shows the path. -/
theorem requestPath_first_iff {request first rest : List UInt8} (whole : first ++ rest = request) :
    (requestPath first = "/metrics".toList ↔ requestPath request = "/metrics".toList) ↔
      KeepsPath request first := by
  subst whole
  rw [requestPath_eq_metrics_iff, requestPath_eq_metrics_iff]
  constructor
  · intro same front back path
    constructor
    · intro ends
      obtain ⟨own, more, shown, stops⟩ := same.mpr ⟨front, back, path, ends⟩
      obtain ⟨rfl, -⟩ := (shown.append rest).unique path
      exact ⟨more, shown.1, stops⟩
    · rintro goesOn rfl
      have shown : PathAt (front ++ metricsPath) front [] := ⟨by rw [List.append_nil], path.2⟩
      obtain ⟨own, other, elsewhere, ends⟩ := same.mp ⟨front, [], shown, .inl rfl⟩
      obtain ⟨rfl, rfl⟩ := elsewhere.unique path
      exact goesOn ends
  · intro keeps
    constructor
    · rintro ⟨front, more, shown, stops⟩
      have path := shown.append rest
      refine ⟨front, more ++ rest, path, ?_⟩
      by_contra goesOn
      cases more with
      | nil => exact (keeps _ _ path).2 goesOn (by rw [shown.1, List.append_nil])
      | cons byte more => exact goesOn (stops.append (List.cons_ne_nil _ _) rest)
    · rintro ⟨front, back, path, ends⟩
      obtain ⟨more, split, stops⟩ := (keeps front back path).1 ends
      exact ⟨front, more, ⟨split, path.2⟩, stops⟩

section Responses

variable (encoded : Except String (List UInt8)) {request : Request}

theorem handleMetricsResponse_ne_notFound :
    (handleMetricsResponse encoded).map some ≠ .ok (some handleNotFoundResponse) := by
  intro same
  cases encoded with
  | error message => cases same
  | ok responseBuffer =>
      have texts := Option.some.inj (Except.ok.inj same)
      -- The tenth character is the first digit of the status.
      have digits := congrArg (fun text => text.toList[9]?) texts
      simp [handleNotFoundResponse] at digits

theorem Delivery.handleHttpRequest_eq (delivery : Delivery request) :
    handleHttpRequest encoded delivery.chunks =
      if requestPath delivery.first = "/metrics".toList then
        (handleMetricsResponse encoded).map some
      else
        .ok (some handleNotFoundResponse) := by
  have fits : delivery.first.length ≤ bufferSize := by
    have length := congrArg List.length delivery.whole
    rw [List.length_append] at length
    have bounded := request.bounded
    omega
  have buffer : read delivery.chunks = delivery.first := List.take_of_length_le fits
  have arrived : delivery.first ≠ [] := delivery.nonempty _ List.mem_cons_self
  rw [handleHttpRequest, buffer, if_neg arrived]

theorem Delivery.same_response_iff (delivery : Delivery request) :
    handleHttpRequest encoded delivery.chunks =
        handleHttpRequest encoded (Delivery.atOnce request).chunks ↔
      KeepsPath request.bytes delivery.first := by
  rw [← requestPath_first_iff delivery.whole, handleHttpRequest_eq, handleHttpRequest_eq,
    atOnce_first]
  have different := handleMetricsResponse_ne_notFound encoded
  by_cases shown : requestPath delivery.first = "/metrics".toList <;>
    by_cases asked : requestPath request.bytes = "/metrics".toList
  · simp only [shown, asked, if_true]
  · rw [if_pos shown, if_neg asked]
    exact iff_of_false different fun same => asked (same.mp shown)
  · rw [if_neg shown, if_pos asked]
    exact iff_of_false (Ne.symm different) fun same => shown (same.mpr asked)
  · rw [if_neg shown, if_neg asked]
    exact iff_of_true rfl (iff_of_false shown asked)

end Responses

theorem LeadsToPath.ne_nil {front : List UInt8} (leads : LeadsToPath front) : front ≠ [] := by
  rintro rfl
  exact absurd leads.2.1 (by decide)

/-- A path that begins with `/metrics` can be cut so that it is misread. -/
theorem PathAt.exists_delivery {request : Request} {front back : List UInt8}
    (path : PathAt request.bytes front back) :
    ∃ delivery : Delivery request, ¬KeepsPath request.bytes delivery.first := by
  by_cases ends : EndsPath back
  · refine ⟨⟨front, [metricsPath ++ back], ?_, ?_⟩, ?_⟩
    · simp [path.2.ne_nil, metricsPath]
    · rw [List.flatten_singleton, path.1]
    · intro keeps
      obtain ⟨more, shown, -⟩ := (keeps front back path).1 ends
      have length := congrArg List.length shown
      simp [metricsPath] at length
  · refine ⟨⟨front ++ metricsPath, [back], ?_, ?_⟩, ?_⟩
    · have behind : back ≠ [] := fun nothing => ends (.inl nothing)
      simp [behind, metricsPath]
    · rw [List.flatten_singleton, path.1, List.append_assoc]
    · intro keeps
      exact (keeps front back path).2 ends rfl

/-- A request in pieces is answered like one that arrives at once exactly if
the first piece shows the path; every way to cut it is answered alike exactly
if the path does not begin with `/metrics`. -/
theorem segmentation_independent_iff (encoded : Except String (List UInt8)) (request : Request) :
    (∀ delivery : Delivery request,
      handleHttpRequest encoded delivery.chunks =
          handleHttpRequest encoded (Delivery.atOnce request).chunks ↔
        KeepsPath request.bytes delivery.first) ∧
      ((∀ delivery : Delivery request,
          handleHttpRequest encoded delivery.chunks =
            handleHttpRequest encoded (Delivery.atOnce request).chunks) ↔
        ¬∃ front back, PathAt request.bytes front back) := by
  refine ⟨fun delivery => delivery.same_response_iff encoded, ?_, ?_⟩
  · rintro same ⟨front, back, path⟩
    obtain ⟨delivery, cut⟩ := path.exists_delivery
    exact cut ((delivery.same_response_iff encoded).mp (same delivery))
  · intro elsewhere delivery
    apply (delivery.same_response_iff encoded).mpr
    intro front back path
    exact absurd ⟨front, back, path⟩ elsewhere

def bytesOf (text : String) : List UInt8 := text.toList.map fun character => .ofNat character.toNat

def scrape : Request where
  bytes := bytesOf "GET /metrics HTTP/1.1\r\n\r\n"
  bounded := by decide
  complete := by decide

def scrapeInPieces : Delivery scrape where
  first := bytesOf "G"
  later := [bytesOf "ET /metrics HTTP/1.1\r\n\r\n"]
  nonempty := by decide
  whole := by decide

theorem scrape_depends_on_segmentation :
    handleHttpRequest (.ok []) scrapeInPieces.chunks = .ok (some handleNotFoundResponse) ∧
      handleHttpRequest (.ok []) (Delivery.atOnce scrape).chunks =
        (handleMetricsResponse (.ok [])).map some ∧
      handleHttpRequest (.ok []) scrapeInPieces.chunks ≠
        handleHttpRequest (.ok []) (Delivery.atOnce scrape).chunks := by
  have pieces : requestPath scrapeInPieces.first ≠ "/metrics".toList := by decide +kernel
  have whole : requestPath scrape.bytes = "/metrics".toList := by decide +kernel
  rw [Delivery.handleHttpRequest_eq, Delivery.handleHttpRequest_eq, Delivery.atOnce_first,
    if_neg pieces, if_pos whole]
  exact ⟨rfl, rfl, Ne.symm (handleMetricsResponse_ne_notFound _)⟩

end BpfAgent.Metrics
