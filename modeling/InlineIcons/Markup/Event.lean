import InlineIcons.Markup.Tag

/-!
Markup as a sequence of events. Reading stops at the first fault; the events before it stand, so a
consumer that objects to one of them does so first.
-/
namespace InlineIcons.Markup

/-- Tags are kept as they are written; declarations, instructions and document types carry nothing. -/
inductive Event where
  | startTag (text : List Char)
  | emptyTag (text : List Char)
  | endTag
  | text (raw : List Char)
  | cdata (data : List Char)
  | comment (text : List Char)
  | ignored
  deriving DecidableEq, Repr

inductive ReadFault where
  | tagNotClosed
  | commentNotClosed
  | cdataNotClosed
  | doctypeNotClosed
  | instructionNotClosed
  | unknownMarkup
  | doctypeWithoutName
  | mismatchedEnd (expected found : String)
  | unmatchedEnd (found : String)
  deriving DecidableEq, Repr

def ReadFault.message : ReadFault → String
  | tagNotClosed => "syntax error: tag not closed: `>` not found before end of input"
  | commentNotClosed => "syntax error: comment not closed: `-->` not found before end of input"
  | cdataNotClosed => "syntax error: CDATA not closed: `]]>` not found before end of input"
  | doctypeNotClosed => "syntax error: DOCTYPE not closed: `>` not found before end of input"
  | instructionNotClosed =>
    "syntax error: processing instruction or xml declaration not closed: " ++
      "`?>` not found before end of input"
  | unknownMarkup => "syntax error: unknown or missed symbol in markup"
  | doctypeWithoutName =>
    "ill-formed document: `<!DOCTYPE>` declaration does not contain a name of a document type"
  | mismatchedEnd expected found =>
    s!"ill-formed document: expected `</{expected}>`, but `</{found}>` was found"
  | unmatchedEnd found =>
    s!"ill-formed document: close tag `</{found}>` does not match any open tag"

/-- The text of a tag: a `>` inside quotes does not end it. -/
def cutTag? (quote : Option Char) : List Char → Option (List Char × List Char)
  | [] => none
  | c :: cs =>
    let next := match quote with
      | some q => if c = q then none else some q
      | none => if c = '"' || c = '\'' then some c else none
    if quote.isNone && c = '>' then some ([], cs)
    else (cutTag? next cs).map fun (tag, after) => (c :: tag, after)

/-- The text of a document type, which ends where its angle brackets balance. -/
def cutDoctype? (depth : Nat) : List Char → Option (List Char × List Char)
  | [] => none
  | c :: cs =>
    if c = '>' && depth = 0 then some ([], cs)
    else
      let depth := if c = '<' then depth + 1 else if c = '>' then depth - 1 else depth
      (cutDoctype? depth cs).map fun (text, after) => (c :: text, after)

theorem cutTag?_length {quote : Option Char} {cs tag after : List Char}
    (h : cutTag? quote cs = some (tag, after)) : after.length < cs.length := by
  induction cs generalizing quote tag with
  | nil => simp [cutTag?] at h
  | cons c cs ih =>
    simp only [cutTag?] at h
    split at h
    · simp only [Option.some.injEq, Prod.mk.injEq] at h
      simp [← h.2]
    · simp only [Option.map_eq_some_iff, Prod.mk.injEq, Prod.exists] at h
      obtain ⟨t, a, ht, -, rfl⟩ := h
      have := ih ht
      simp; omega

theorem cutDoctype?_length {depth : Nat} {cs text after : List Char}
    (h : cutDoctype? depth cs = some (text, after)) : after.length < cs.length := by
  induction cs generalizing depth text with
  | nil => simp [cutDoctype?] at h
  | cons c cs ih =>
    simp only [cutDoctype?] at h
    split at h
    · simp only [Option.some.injEq, Prod.mk.injEq] at h
      simp [← h.2]
    · simp only [Option.map_eq_some_iff, Prod.mk.injEq, Prod.exists] at h
      obtain ⟨t, a, ht, -, rfl⟩ := h
      have := ih ht
      simp; omega

/-- One piece of markup after `<`: its event, its text and what follows; or the fault, with its
distance in bytes from the `<`. -/
structure Piece where
  event : Event
  text : List Char
  rest : List Char

abbrev PieceResult := Except (ReadFault × Nat) Piece

def readComment (cs : List Char) : PieceResult :=
  match cs with
  | '-' :: '-' :: body =>
    match Text.cutAt? ['-', '-', '>'] body with
    | some (text, after) => .ok ⟨.comment text, '!' :: '-' :: '-' :: text ++ ['-', '-', '>'], after⟩
    | none => .error (.commentNotClosed, 0)
  | _ => .error (.commentNotClosed, 0)

def readCData (cs : List Char) : PieceResult :=
  match cs with
  | '[' :: 'C' :: 'D' :: 'A' :: 'T' :: 'A' :: '[' :: body =>
    match Text.cutAt? [']', ']', '>'] body with
    | some (data, after) =>
      .ok ⟨.cdata data, "![CDATA[".toList ++ data ++ [']', ']', '>'], after⟩
    | none => .error (.cdataNotClosed, 0)
  | _ => .error (.cdataNotClosed, 0)

/-- A document type needs its keyword, in any case, and a name. -/
def readDoctype (cs : List Char) : PieceResult :=
  match cutDoctype? 0 cs with
  | none => .error (.doctypeNotClosed, 0)
  | some (text, after) =>
    if (text.take 7).map Char.toUpper = "DOCTYPE".toList then
      if (text.drop 7).all isTagBlank then
        .error (.doctypeWithoutName, 2 + Text.byteLength text)
      else .ok ⟨.ignored, '!' :: text ++ ['>'], after⟩
    else .error (.doctypeNotClosed, 0)

def readDeclaration (cs : List Char) : PieceResult :=
  match cs with
  | '-' :: _ => readComment cs
  | '[' :: _ => readCData cs
  | 'D' :: _ => readDoctype cs
  | 'd' :: _ => readDoctype cs
  | _ => .error (.unknownMarkup, 0)

/-- An instruction ends at `?>`, and its two question marks are different ones. -/
def readInstruction (cs : List Char) : PieceResult :=
  match cs with
  | '>' :: _ => .error (.instructionNotClosed, 0)
  | _ =>
    match Text.cutAt? ['?', '>'] cs with
    | some (text, after) => .ok ⟨.ignored, '?' :: text ++ ['?', '>'], after⟩
    | none => .error (.instructionNotClosed, 0)

/-- A tag whose text ends in `/` has no content. -/
def readStart (cs : List Char) : PieceResult :=
  match cutTag? none cs with
  | none => .error (.tagNotClosed, 0)
  | some (text, after) =>
    if text.getLast? = some '/' then .ok ⟨.emptyTag text.dropLast, text ++ ['>'], after⟩
    else .ok ⟨.startTag text, text ++ ['>'], after⟩

/-- A name in an end tag without the blanks after it; blanks alone stay. -/
def trimEnd (name : List Char) : List Char :=
  if name.all isTagBlank then name else (name.reverse.dropWhile isTagBlank).reverse

/-- An end tag closes the innermost open tag, which must have the same full name. A `>` between quotes does
not end it, as in a start tag. -/
def readEnd (openTags : List (List Char)) (cs : List Char) : PieceResult :=
  match cutTag? none cs with
  | none => .error (.tagNotClosed, 0)
  | some (text, after) =>
    let name := trimEnd text
    match openTags with
    | [] => .error (.unmatchedEnd (String.ofList name), 0)
    | expected :: _ =>
      if name = expected then .ok ⟨.endTag, '/' :: text ++ ['>'], after⟩
      else .error (.mismatchedEnd (String.ofList expected) (String.ofList name), 0)

def readPiece (openTags : List (List Char)) (cs : List Char) : PieceResult :=
  match cs with
  | [] => .error (.tagNotClosed, 0)
  | '/' :: rest => readEnd openTags rest
  | '!' :: rest => readDeclaration rest
  | '?' :: rest => readInstruction rest
  | _ => readStart cs

section Lengths

variable {openTags : List (List Char)} {cs : List Char} {p : Piece}

theorem readComment_length (h : readComment cs = .ok p) : p.rest.length ≤ cs.length := by
  simp only [readComment] at h
  split at h
  · split at h
    · next hc =>
      cases h
      have := Text.cutAt?_length_le hc
      simp; omega
    · simp at h
  · simp at h

theorem readCData_length (h : readCData cs = .ok p) : p.rest.length ≤ cs.length := by
  simp only [readCData] at h
  split at h
  · split at h
    · next hc =>
      cases h
      have := Text.cutAt?_length_le hc
      simp; omega
    · simp at h
  · simp at h

theorem readDoctype_length (h : readDoctype cs = .ok p) : p.rest.length ≤ cs.length := by
  simp only [readDoctype] at h
  split at h
  · simp at h
  · next hc =>
    have := cutDoctype?_length hc
    split at h
    · split at h
      · simp at h
      · cases h
        simp; omega
    · simp at h

theorem readDeclaration_length (h : readDeclaration cs = .ok p) : p.rest.length ≤ cs.length := by
  unfold readDeclaration at h
  split at h
  · exact readComment_length h
  · exact readCData_length h
  · exact readDoctype_length h
  · exact readDoctype_length h
  · simp at h

theorem readInstruction_length (h : readInstruction cs = .ok p) : p.rest.length ≤ cs.length := by
  simp only [readInstruction] at h
  split at h
  · simp at h
  · split at h
    · next hc =>
      cases h
      exact Text.cutAt?_length_le hc
    · simp at h

theorem readStart_length (h : readStart cs = .ok p) : p.rest.length ≤ cs.length := by
  simp only [readStart] at h
  split at h
  · simp at h
  · next hc =>
    have := cutTag?_length hc
    split at h
    · cases h
      simp; omega
    · cases h
      simp; omega

theorem readEnd_length (h : readEnd openTags cs = .ok p) : p.rest.length ≤ cs.length := by
  simp only [readEnd] at h
  split at h
  · simp at h
  · next hc =>
    split at h
    · simp at h
    · split at h
      · cases h
        exact Nat.le_of_lt (cutTag?_length hc)
      · simp at h

theorem readPiece_length (h : readPiece openTags cs = .ok p) : p.rest.length ≤ cs.length := by
  unfold readPiece at h
  split at h
  · simp at h
  · exact Nat.le_succ_of_le (readEnd_length h)
  · exact Nat.le_succ_of_le (readDeclaration_length h)
  · exact Nat.le_succ_of_le (readInstruction_length h)
  · exact readStart_length h

end Lengths

/-- Events in order, and the fault that ended the reading with its byte position. -/
structure Reading where
  events : List Event
  fault : Option (ReadFault × Nat)
  deriving DecidableEq, Repr

def Reading.cons (e : Event) (r : Reading) : Reading := { r with events := e :: r.events }

/-- The names of the open tags after an event. -/
def openAfter (openTags : List (List Char)) : Event → List (List Char)
  | .startTag text => tagName text :: openTags
  | .endTag => openTags.tail
  | _ => openTags

def readFrom (position : Nat) (openTags : List (List Char)) (cs : List Char) : Reading :=
  match cs with
  | [] => ⟨[], none⟩
  | '<' :: rest =>
    match _h : readPiece openTags rest with
    | .error (fault, distance) => ⟨[], some (fault, position + distance)⟩
    | .ok piece =>
      (readFrom (position + 1 + Text.byteLength piece.text) (openAfter openTags piece.event)
        piece.rest).cons piece.event
  | c :: rest =>
    let text := c :: rest.takeWhile (· != '<')
    (readFrom (position + Text.byteLength text) openTags (rest.dropWhile (· != '<'))).cons (.text text)
termination_by cs.length
decreasing_by
  · have := readPiece_length _h
    simp; omega
  · have := (List.dropWhile_sublist (l := rest) (· != '<')).length_le
    simp at this ⊢; omega

/-- Reads a whole content; one leading byte order mark is no part of it. -/
def read (content : List Char) : Reading :=
  match content with
  | '\uFEFF' :: rest => readFrom 0 [] rest
  | _ => readFrom 0 [] content

end InlineIcons.Markup
