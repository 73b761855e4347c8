import InlineIcons.Proofs.Markup.Entity
import InlineIcons.Proofs.Text.Cut

/-! Tags that are written in free style: where their text ends, and what name and attributes are read from it. -/
namespace InlineIcons.Markup

variable {name : FullName} {attributes : List (FullName × List Char)} {tag slack : List Char}

theorem dropWhile_blanks {blanks rest : List Char} (blank : Blanks blanks)
    (stops : ∀ c ∈ rest.head?, isTagBlank c = false) : (blanks ++ rest).dropWhile isTagBlank = rest := by
  rw [List.dropWhile_append_of_pos blank]
  cases rest with
  | nil => rfl
  | cons c rest => simp [stops c rfl]

/-- A part of a tag that leaves no quote open and holds no `>` outside of quotes. -/
def TagPart (part : List Char) : Prop :=
  ∀ rest, cutTag? none (part ++ rest) = (cutTag? none rest).map fun (tag,after) => (part ++ tag,after)

theorem tagPart_nil : TagPart [] := by
  intro rest
  rw [List.nil_append]
  cases cutTag? none rest <;> rfl

theorem TagPart.append {a b : List Char} (first : TagPart a) (second : TagPart b) : TagPart (a ++ b) := by
  intro rest
  rw [List.append_assoc,first,second,Option.map_map]
  congr 1
  funext cut
  simp

theorem tagPart_single {c : Char} (double : c ≠ '"') (apostrophe : c ≠ '\'') (greater : c ≠ '>') : TagPart [c] := by
  intro rest
  simp [cutTag?,double,apostrophe,greater]

theorem tagPart_plain {part : List Char} (plain : ∀ c ∈ part, c ≠ '"' ∧ c ≠ '\'' ∧ c ≠ '>') : TagPart part := by
  induction part with
  | nil => exact tagPart_nil
  | cons c part ih =>
    obtain ⟨double,apostrophe,greater⟩ := plain c List.mem_cons_self
    exact (tagPart_single double apostrophe greater).append (b := part) <|
      ih fun d member => plain d (List.mem_cons_of_mem c member)

theorem cutTag?_quoted {q : Char} {inner rest : List Char} (absent : q ∉ inner) :
    cutTag? (some q) (inner ++ q :: rest) =
      (cutTag? none rest).map fun (tag,after) => (inner ++ q :: tag,after) := by
  induction inner with
  | nil => simp [cutTag?]
  | cons c inner ih =>
    simp only [List.mem_cons,not_or] at absent
    simp only [List.cons_append,cutTag?,Ne.symm absent.1,if_false,Option.isNone_some,Bool.false_and,
      Bool.false_eq_true,ih absent.2,Option.map_map]
    rfl

theorem tagPart_quoted {q : Char} {inner : List Char} (quote : q = '"' ∨ q = '\'') (absent : q ∉ inner) :
    TagPart (q :: (inner ++ [q])) := by
  intro rest
  have inside : (inner ++ [q]) ++ rest = inner ++ q :: rest := by simp
  have greater : q ≠ '>' := by rcases quote with rfl | rfl <;> decide
  have opens : (q = '"' || q = '\'') = true := by simpa using quote
  rw [List.cons_append,inside,cutTag?]
  simp only [opens,if_true,Option.isNone_none,Bool.true_and,decide_eq_true_eq,greater,if_false,
    cutTag?_quoted absent,Option.map_map]
  congr 1
  funext cut
  simp

theorem tagPart_blanks {blanks : List Char} (blank : Blanks blanks) : TagPart blanks :=
  tagPart_plain fun c member => by
    have := blank c member
    refine ⟨?_,?_,?_⟩ <;> rintro rfl <;> simp [isTagBlank] at this

theorem tagPart_name (name : FullName) : TagPart name.text :=
  tagPart_plain fun _ member => ⟨name.ne_mark member '"' (by decide) (by decide),
    name.ne_mark member '\'' (by decide) (by decide),name.ne_mark member '>' (by decide) (by decide)⟩

theorem tagPart_attributes (written : AttributesWritten .free attributes tag) : TagPart tag := by
  induction written with
  | nil => exact tagPart_nil
  | @cons name value gap before after written rest q more gapped blank blank' quote spelled _ ih =>
    -- A `>` may stand in the value: what keeps the tag together is that its own quote does not.
    have absent : q ∉ written := spelled.not_mem (by rcases quote with rfl | rfl <;> rfl) fun plain => plain.2.2 rfl
    have parts := (((((tagPart_blanks gapped.2).append (tagPart_name name)).append (tagPart_blanks blank)).append
      (tagPart_single (c := '=') (by decide) (by decide) (by decide))).append (tagPart_blanks blank')).append
        ((tagPart_quoted quote absent).append ih)
    simpa using parts

theorem cutTag?_written (name : FullName) (written : AttributesWritten .free attributes tag) (blank : Blanks slack)
    (rest : List Char) :
    cutTag? none (name.text ++ tag ++ slack ++ '>' :: rest) = some (name.text ++ tag ++ slack,rest) := by
  have parts := ((tagPart_name name).append (tagPart_attributes written)).append (tagPart_blanks blank)
  rw [parts ('>' :: rest)]
  simp [cutTag?]

theorem cutTag?_single (name : FullName) (written : AttributesWritten .free attributes tag) (blank : Blanks slack)
    (rest : List Char) :
    cutTag? none (name.text ++ tag ++ slack ++ '/' :: '>' :: rest) =
      some (name.text ++ tag ++ slack ++ ['/'],rest) := by
  have parts := (((tagPart_name name).append (tagPart_attributes written)).append (tagPart_blanks blank)).append
    (tagPart_single (c := '/') (by decide) (by decide) (by decide))
  have whole : name.text ++ tag ++ slack ++ '/' :: '>' :: rest =
      name.text ++ tag ++ slack ++ ['/'] ++ '>' :: rest := by simp
  rw [whole,parts ('>' :: rest)]
  simp [cutTag?]

theorem getLast?_attributes (written : AttributesWritten .free attributes tag) :
    tag = [] ∨ tag.getLast? = some '"' ∨ tag.getLast? = some '\'' := by
  induction written with
  | nil => exact .inl rfl
  | @cons name value gap before after written rest q more _ _ _ quote _ _ ih =>
    have whole : gap ++ name.text ++ before ++ '=' :: (after ++ q :: (written ++ q :: rest)) =
        (gap ++ name.text ++ before ++ '=' :: (after ++ q :: written)) ++ q :: rest := by simp
    rw [whole,List.getLast?_append,List.getLast?_cons]
    refine .inr ?_
    rcases ih with rfl | double | apostrophe
    · rcases quote with rfl | rfl <;> simp
    · simp [double]
    · simp [apostrophe]

/-- A tag ends in a name, a quote or a blank, never in the slash of an empty tag. -/
theorem getLast?_written (name : FullName) (written : AttributesWritten .free attributes tag) (blank : Blanks slack) :
    (name.text ++ tag ++ slack).getLast? ≠ some '/' := by
  intro last
  rcases List.eq_nil_or_concat slack with rfl | ⟨_,d,rfl⟩
  · rw [List.append_nil,List.getLast?_append] at last
    rcases getLast?_attributes written with rfl | double | apostrophe
    · have member := List.mem_of_getLast? (by simpa using last)
      exact name.ne_mark member '/' (by decide) (by decide) rfl
    · simp [double] at last
    · simp [apostrophe] at last
  · have final : d = '/' := by simpa using last
    have := blank d (by simp)
    simp [final,isTagBlank] at this

/-- The attributes that a reader keeps: all but namespace declarations. -/
def kept (attributes : List (FullName × List Char)) : List (String × String) :=
  (attributes.filter fun a => !a.1.declares).map fun a => (String.ofList a.1.text,String.ofList a.2)

theorem readValue_written {key after value rest : List Char} {q : Char} (position : Nat) (blank : Blanks after)
    (quote : q = '"' ∨ q = '\'') (absent : q ∉ value) : ∃ position',
      readValue key position (after ++ q :: (value ++ q :: rest)) = .ok ⟨key,value,position',rest⟩ := by
  have stops : ∀ c ∈ (q :: (value ++ q :: rest)).head?, isTagBlank c = false := by
    rcases quote with rfl | rfl <;> simp [isTagBlank]
  have opens : (q = '"' || q = '\'') = true := by simpa using quote
  unfold readValue
  simp only [dropWhile_blanks blank stops,opens,if_true,Text.cutAt?_single absent]
  exact ⟨_,rfl⟩

theorem readAttribute_written {before after value rest cs : List Char} {c q : Char} (position : Nat)
    (named : name.text = c :: cs) (blank : Blanks before) (blank' : Blanks after)
    (quote : q = '"' ∨ q = '\'') (absent : q ∉ value) : ∃ position',
      readAttribute position c (cs ++ (before ++ '=' :: (after ++ q :: (value ++ q :: rest)))) =
        .ok ⟨name.text,value,position',rest⟩ := by
  have inside : ∀ d ∈ cs, inKey d := fun d member => name.inKey_of_mem (named ▸ List.mem_cons_of_mem c member)
  have ends : ∀ text, (before ++ '=' :: text).takeWhile inKey = [] ∧
      (before ++ '=' :: text).dropWhile inKey = before ++ '=' :: text := by
    intro text
    cases before with
    | nil => simp [inKey]
    | cons d before =>
      have : isTagBlank d := blank d List.mem_cons_self
      simp [inKey,this]
  have stops : ∀ text, ∀ d ∈ ('=' :: text).head?, isTagBlank d = false := by simp [isTagBlank]
  unfold readAttribute
  simp only [List.takeWhile_append_of_pos inside,List.dropWhile_append_of_pos inside,ends,List.append_nil,
    dropWhile_blanks blank (stops _),← named]
  exact readValue_written _ blank' quote absent

theorem readAttributes_blanks (blank : Blanks slack) (position : Nat) : readAttributes position slack = .ok [] := by
  have none : slack.dropWhile isTagBlank = [] := List.dropWhile_eq_nil_iff.mpr blank
  rw [readAttributes]
  split
  · rfl
  · next c rest more => simp [none] at more

theorem readAttributes_cons {gap cs key spelled value rest : List Char} {c : Char} (blank : Blanks gap)
    (stops : isTagBlank c = false)
    (one : ∀ position, ∃ position', readAttribute position c cs = .ok ⟨key,spelled,position',rest⟩)
    (means : Entity.unescape spelled = .ok value) {more : List (String × String)}
    (others : ∀ position, readAttributes position rest = .ok more) (position : Nat) :
    readAttributes position (gap ++ c :: cs) =
      .ok (if isNamespaceKey key then more else (String.ofList key,String.ofList value) :: more) := by
  have cut : (gap ++ c :: cs).dropWhile isTagBlank = c :: cs := dropWhile_blanks blank (by simpa using stops)
  rw [readAttributes]
  split
  · next none => simp [cut] at none
  · next d rest' first =>
    obtain ⟨rfl,rfl⟩ := List.cons.inj (cut.symm.trans first)
    obtain ⟨position',read⟩ := one (endPosition position ((gap ++ c :: cs).takeWhile isTagBlank))
    dsimp only
    split
    · next e fails => simp [read] at fails
    · next a done =>
      obtain rfl := Except.ok.inj (read.symm.trans done)
      split
      · exact others position'
      · simp only [means,others]

theorem readAttributes_written (written : AttributesWritten .free attributes tag) (blank : Blanks slack)
    (position : Nat) : readAttributes position (tag ++ slack) = .ok (kept attributes) := by
  induction written generalizing position with
  | nil => exact readAttributes_blanks blank position
  | @cons name value gap before after written rest q more gapped blank₁ blank₂ quote spelled _ ih =>
    obtain ⟨c,cs,named⟩ := name.exists_cons
    have whole : gap ++ name.text ++ before ++ '=' :: (after ++ q :: (written ++ q :: rest)) ++ slack =
        gap ++ c :: (cs ++ (before ++ '=' :: (after ++ q :: (written ++ q :: (rest ++ slack))))) := by
      simp [named]
    have stops : isTagBlank c = false := name.isTagBlank_of_mem (named ▸ List.mem_cons_self)
    have absent : q ∉ written :=
      spelled.not_mem (by rcases quote with rfl | rfl <;> rfl) fun plain => plain.2.2 rfl
    have means : Entity.unescape written = .ok value := spelled.unescape fun _ plain => plain.2.1
    rw [whole,readAttributes_cons gapped.2 stops
      (fun position => readAttribute_written position named blank₁ blank₂ quote absent) means ih]
    cases declared : name.declares <;> simp [kept,name.isNamespaceKey_text,declared]

theorem head?_attributes (written : AttributesWritten .free attributes tag) (blank : Blanks slack) :
    ∀ c ∈ (tag ++ slack).head?, isTagBlank c := by
  intro c first
  cases written with
  | nil =>
    rw [List.nil_append] at first
    exact blank c (List.mem_of_mem_head? first)
  | cons gapped =>
    obtain ⟨d,gap,rfl⟩ := List.exists_cons_of_ne_nil gapped.1
    obtain rfl : d = c := by simpa using first
    exact gapped.2 d List.mem_cons_self

theorem tagName_written (written : AttributesWritten .free attributes tag) (blank : Blanks slack) :
    tagName (name.text ++ tag ++ slack) = name.text := by
  have inside : ∀ c ∈ name.text, (!isTagBlank c) = true := fun c member => by simp [name.isTagBlank_of_mem member]
  have ends := head?_attributes written blank
  rw [tagName,List.append_assoc,List.takeWhile_append_of_pos inside]
  cases rest : tag ++ slack with
  | nil => simp
  | cons c cs => simp [ends c (by simp [rest])]

/-- A tag that is written in free style is read as its local name and its attributes. -/
theorem read_written (written : AttributesWritten .free attributes tag) (blank : Blanks slack) :
    Tag.read (name.text ++ tag ++ slack) = .ok ⟨String.ofList name.own.chars,kept attributes⟩ := by
  have left : (name.text ++ tag ++ slack).drop name.text.length = tag ++ slack := by
    rw [List.append_assoc,List.drop_left]
  simp only [Tag.read,tagName_written written blank,left,readAttributes_written written blank,
    name.localName_text]

/-- Blanks after the name of an end tag do not count. -/
theorem trimEnd_written (blank : Blanks slack) : trimEnd (name.text ++ slack) = name.text := by
  obtain ⟨c,cs,named⟩ := name.exists_cons
  have first : isTagBlank c = false := name.isTagBlank_of_mem (named ▸ List.mem_cons_self)
  have filled : (name.text ++ slack).all isTagBlank = false := by simp [named,first]
  have trimmed : (name.text ++ slack).reverse.dropWhile isTagBlank = name.text.reverse := by
    rw [List.reverse_append]
    refine dropWhile_blanks (fun d member => blank d (List.mem_reverse.mp member)) fun d last => ?_
    exact name.isTagBlank_of_mem (List.mem_reverse.mp (List.mem_of_mem_head? last))
  rw [trimEnd,filled,trimmed,List.reverse_reverse]
  rfl

end InlineIcons.Markup
