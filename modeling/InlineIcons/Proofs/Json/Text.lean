import InlineIcons.Json.Reader
import InlineIcons.Proofs.Text.Utf8
import Mathlib.Tactic.SplitIfs

/-! A value is read back from its compact text whatever follows it, unless its brackets nest too deep for the
reader; only a number has to be followed by something that cannot belong to it. So the text determines the value. -/
namespace InlineIcons.Json

section Characters

theorem hexValue?_hexDigit {n : Nat} (bound : n < 16) : Text.hexValue? (hexDigit n) = some n := by
  have table : ∀ m < 16, Text.hexValue? (hexDigit m) = some m := by decide
  exact table n bound

theorem character?_control {c : Char} (control : c.toNat < 0x20) (rest : List Char) :
    character? ('\\' :: 'u' :: '0' :: '0' :: hexDigit (c.toNat / 16) :: hexDigit (c.toNat % 16) :: rest) =
      some (c,rest) := by
  have zero : Text.hexValue? '0' = some 0 := by decide
  have high := hexValue?_hexDigit (n := c.toNat / 16) (by omega)
  have low := hexValue?_hexDigit (n := c.toNat % 16) (by omega)
  have whole : 16 * (c.toNat / 16) + c.toNat % 16 = c.toNat := by omega
  have single : c.toNat < 0xD800 := by omega
  simp [character?,unicodeEscape?,hexUnit?,zero,high,low,whole,single]

theorem character?_plain {c : Char} (plain : c ≠ '\\') (visible : ¬ c.toNat < 0x20) (rest : List Char) :
    character? (c :: rest) = some (c,rest) := by
  unfold character?
  split <;> simp_all

theorem character?_escapeChar (c : Char) (rest : List Char) :
    character? (escapeChar c ++ rest) = some (c,rest) := by
  unfold escapeChar
  split_ifs with quote slash back form line carriage tab control
  all_goals try subst c
  all_goals try rfl
  · exact character?_control control rest
  · exact character?_plain slash control rest

theorem escapeChar_opens (c : Char) : ∃ d cs, escapeChar c = d :: cs ∧ d ≠ '"' := by
  unfold escapeChar
  split_ifs with quote <;> exact ⟨_,_,rfl,by first | decide | exact quote⟩

end Characters

section Parts

variable {α : Type} {close : Char} {read : List Char → Option (α × List Char)} {written : α → List Char}
  {fits : α → Prop} [DecidablePred fits] {follows : List Char → Prop} {x : α} {xs : List α}

/-- A part that fits is taken from before anything that may follow it, and one that does not is refused. -/
def Takes (read : List Char → Option (α × List Char)) (written : α → List Char) (fits : α → Prop)
    [DecidablePred fits] (follows : List Char → Prop) (x : α) : Prop :=
  ∀ rest, follows rest → read (written x ++ rest) = if fits x then some (x,rest) else none

/-- A part and those after it are taken together if each of them fits. -/
theorem join_parts {first : Option (α × List Char)} (others : List Char → Option (List α × List Char))
    {between rest : List Char} (here : first = if fits x then some (x,between) else none)
    (there : others between = if ∀ y ∈ xs, fits y then some (xs,rest) else none) :
    (do
      let (y,cs) ← first
      let (ys,cs) ← others cs
      return (y :: ys,cs)) = if ∀ y ∈ x :: xs, fits y then some (x :: xs,rest) else none := by
  simp only [List.forall_mem_cons,here]
  by_cases fit : fits x
  · rw [if_pos fit,Option.bind_eq_bind,Option.bind_some,there]
    by_cases all : ∀ y ∈ xs, fits y
    · rw [if_pos all,if_pos ⟨fit,all⟩]
      rfl
    · rw [if_neg all,if_neg fun ⟨_,there⟩ => all there]
      rfl
  · rw [if_neg fit,if_neg fun ⟨here,_⟩ => fit here]
    rfl

theorem readUntil_written (takes : ∀ x ∈ xs, Takes read written fits follows x)
    (opens : ∀ x, ∃ c cs, written x = c :: cs ∧ c ≠ close) (closing : ∀ rest, follows (close :: rest))
    (between : ∀ x rest, follows (written x ++ rest)) {bound : Nat} (many : (xs.flatMap written).length < bound)
    (rest : List Char) : readUntil close read bound (xs.flatMap written ++ close :: rest) =
      if ∀ x ∈ xs, fits x then some (xs,rest) else none := by
  induction xs generalizing bound with
  | nil =>
    obtain _ | bound := bound
    · simp at many
    · simp [readUntil]
  | cons x xs ih =>
    obtain _ | bound := bound
    · simp at many
    obtain ⟨c,cs,front,other⟩ := opens x
    have next : follows (xs.flatMap written ++ close :: rest) := by
      cases xs with
      | nil => exact closing rest
      | cons y ys => simpa using between y (ys.flatMap written ++ close :: rest)
    have here := takes x List.mem_cons_self _ next
    have fewer : (xs.flatMap written).length < bound := by
      rw [List.flatMap_cons,front,List.length_append,List.length_cons] at many
      omega
    have there := ih (fun y member => takes y (List.mem_cons_of_mem x member)) fewer
    rw [front,List.cons_append] at here
    rw [List.flatMap_cons,front,List.append_assoc,List.cons_append,readUntil,if_neg other]
    exact join_parts _ here there

theorem skipSpace_cons {c : Char} (visible : isSpace c = false) (cs : List Char) : skipSpace (c :: cs) = c :: cs := by
  simp [skipSpace,visible]

def GoesOn (close : Char) (rest : List Char) : Prop := rest.head? = some ',' ∨ rest.head? = some close

theorem GoesOn.skipSpace_eq {rest : List Char} (goes : GoesOn close rest) (mark : isSpace close = false) :
    skipSpace rest = rest := by
  cases rest with
  | nil => rfl
  | cons c rest =>
    have visible : isSpace c = false := by
      rcases goes with comma | closing
      · obtain rfl : c = ',' := by simpa using comma
        decide
      · obtain rfl : c = close := by simpa using closing
        exact mark
    exact skipSpace_cons visible rest

def Opens (close : Char) (cs : List Char) : Prop := ∃ c rest, cs = c :: rest ∧ isSpace c = false ∧ c ≠ close

theorem Takes.spaced (takes : Takes read written fits (GoesOn close) x) (opens : Opens close (written x))
    (mark : isSpace close = false) : Takes (readSpaced read) written fits (GoesOn close) x := by
  intro rest goes
  obtain ⟨c,cs,front,visible,_⟩ := opens
  have start : skipSpace (written x ++ rest) = written x ++ rest := by
    rw [front,List.cons_append,skipSpace_cons visible]
  rw [readSpaced,start,takes rest goes]
  by_cases fit : fits x
  · simp [fit,goes.skipSpace_eq mark]
  · simp [fit]

/-- The parts of a list are read one after another, unless one of them is refused. -/
theorem readList_cons (takes : ∀ y ∈ x :: xs, Takes read written fits (GoesOn close) y)
    (opens : ∀ y, Opens close (written y)) (comma : ',' ≠ close) (mark : isSpace close = false) (rest : List Char) :
    readList close read (written x ++ (xs.flatMap fun y => ',' :: written y) ++ close :: rest) =
      if ∀ y ∈ x :: xs, fits y then some (x :: xs,rest) else none := by
  have spaced (y : α) (member : y ∈ x :: xs) := (takes y member).spaced (opens y) mark
  have goes : GoesOn close ((xs.flatMap fun y => ',' :: written y) ++ close :: rest) := by
    cases xs with
    | nil => exact .inr rfl
    | cons y ys => exact .inl rfl
  have next (y : α) (member : y ∈ xs) : Takes (readNext read) (fun y => ',' :: written y) fits (GoesOn close) y :=
    spaced y (List.mem_cons_of_mem x member)
  have many : (xs.flatMap fun y => ',' :: written y).length < ((xs.flatMap fun y => ',' :: written y) ++ close :: rest).length := by
    rw [List.length_append,List.length_cons]
    omega
  have there := readUntil_written next (fun y => ⟨',',written y,rfl,comma⟩) (fun _ => .inr rfl) (fun _ _ => .inl rfl)
    many rest
  obtain ⟨c,cs,front,visible,other⟩ := opens x
  have here := spaced x List.mem_cons_self _ goes
  rw [front,List.cons_append] at here
  rw [List.append_assoc,front,List.cons_append,readList,skipSpace_cons visible]
  simp only [if_neg other]
  exact join_parts (fun cs => readUntil close (readNext read) cs.length cs) here there

end Parts

theorem readText_quoted (s : String) (rest : List Char) :
    readText (s.toList.flatMap escapeChar ++ '"' :: rest) = some (s,rest) := by
  have takes (c : Char) (_ : c ∈ s.toList) : Takes character? escapeChar (fun _ => True) (fun _ => True) c :=
    fun rest _ => (character?_escapeChar c rest).trans (if_pos trivial).symm
  have many : (s.toList.flatMap escapeChar).length < (s.toList.flatMap escapeChar ++ '"' :: rest).length := by
    rw [List.length_append,List.length_cons]
    omega
  have chars := readUntil_written takes escapeChar_opens (fun _ => trivial) (fun _ _ => trivial) many rest
  rw [readText,chars,if_pos fun _ _ => trivial]
  simp

section Numbers

def isNumeral (c : Char) : Bool := c.isDigit || ['.','e','E'].contains c

/-- Nothing that could belong to a number follows it. -/
def Ends (j : Json) (rest : List Char) : Prop := ∀ n, j = num n → ∀ c ∈ rest.head?, ¬ isNumeral c

theorem ends_nil (j : Json) : Ends j [] := by
  intro n _ c member
  cases member

theorem isDigit_of_mem_repr {n : Nat} {c : Char} (member : c ∈ n.repr.toList) : c.isDigit :=
  Nat.isDigit_of_mem_toDigits (by decide) (by decide) (Nat.toList_repr ▸ member)

theorem ofDigitChars_repr (n : Nat) : Nat.ofDigitChars 10 n.repr.toList 0 = n := by
  rw [Nat.toList_repr]
  simp

theorem repr_eq_of_toList {m n : Nat} (same : m.repr.toList = n.repr.toList) : m = n := by
  rw [← ofDigitChars_repr m,same,ofDigitChars_repr]

theorem readDigits_repr (n : Nat) {rest : List Char} (ends : ∀ c ∈ rest.head?, ¬ isNumeral c) :
    readDigits (n.repr.toList ++ rest) = some (n,rest) := by
  have digit (c : Char) (member : c ∈ n.repr.toList) : c.isDigit := isDigit_of_mem_repr member
  obtain ⟨none,all,whole⟩ : rest.takeWhile Char.isDigit = [] ∧ rest.dropWhile Char.isDigit = rest ∧
      rest.head?.any ['.','e','E'].contains = false := by
    cases rest with
    | nil => exact ⟨rfl,rfl,rfl⟩
    | cons c rest =>
      have other := ends c rfl
      simp_all [isNumeral]
  have taken : (n.repr.toList ++ rest).takeWhile Char.isDigit = n.repr.toList := by
    rw [List.takeWhile_append_of_pos digit,none,List.append_nil]
  have left : (n.repr.toList ++ rest).dropWhile Char.isDigit = rest := by
    rw [List.dropWhile_append_of_pos digit,all]
  simp only [readDigits,taken,left,ofDigitChars_repr,whole]
  simp

theorem toList_negSucc (m : Nat) : (toString (Int.negSucc m)).toList = '-' :: (m + 1).repr.toList := by
  simp [toString,Int.repr]

theorem number_head (n : Int) : ∃ c cs, (toString n).toList = c :: cs ∧ (c.isDigit ∨ c = '-') := by
  cases n with
  | ofNat m =>
    obtain ⟨c,cs,chars⟩ := List.exists_cons_of_ne_nil (l := m.repr.toList) (by simp)
    exact ⟨c,cs,chars,.inl (isDigit_of_mem_repr (chars ▸ List.mem_cons_self))⟩
  | negSucc m => exact ⟨'-',_,toList_negSucc m,.inr rfl⟩

theorem readNumber_toString {n : Int} {rest : List Char} (ends : Ends (num n) rest) :
    readNumber ((toString n).toList ++ rest) = some (num n,rest) := by
  have stops := ends n rfl
  cases n with
  | ofNat m =>
    have digits := readDigits_repr m stops
    obtain ⟨c,cs,chars⟩ := List.exists_cons_of_ne_nil (l := m.repr.toList) (by simp)
    have digit : c.isDigit := isDigit_of_mem_repr (chars ▸ List.mem_cons_self)
    have plus : c ≠ '-' := by
      rintro rfl
      contradiction
    change readNumber (m.repr.toList ++ rest) = _
    rw [chars,List.cons_append] at digits ⊢
    unfold readNumber
    split
    · simp_all
    · rw [digits]
      rfl
  | negSucc m =>
    have digits := readDigits_repr (m + 1) stops
    rw [toList_negSucc,List.cons_append,readNumber,digits]
    rfl

theorem readPlain_num {n : Int} {rest : List Char} (ends : Ends (num n) rest) :
    readPlain ((toString n).toList ++ rest) = some (num n,rest) := by
  have number := readNumber_toString ends
  obtain ⟨c,cs,chars,first⟩ := number_head n
  rw [chars,List.cons_append] at number ⊢
  unfold readPlain
  split <;> simp_all

end Numbers

section Values

mutual
/-- How many brackets of a value lie inside one another. -/
def nesting : Json → Nat
  | arr items => nestingItems items + 1
  | obj fields => nestingFields fields + 1
  | _ => 0

def nestingItems : List Json → Nat
  | [] => 0
  | x :: xs => max x.nesting (nestingItems xs)

def nestingFields : List (String × Json) → Nat
  | [] => 0
  | (_,v) :: fs => max v.nesting (nestingFields fs)
end

theorem nestingItems_le_iff {xs : List Json} {levels : Nat} :
    nestingItems xs ≤ levels ↔ ∀ x ∈ xs, x.nesting ≤ levels := by
  induction xs with
  | nil => simp [nestingItems]
  | cons x xs ih => simp only [nestingItems,Nat.max_le,ih,List.forall_mem_cons]

theorem nestingFields_le_iff {fs : List (String × Json)} {levels : Nat} :
    nestingFields fs ≤ levels ↔ ∀ f ∈ fs, f.2.nesting ≤ levels := by
  induction fs with
  | nil => simp [nestingFields]
  | cons f fs ih => simp only [nestingFields,Nat.max_le,ih,List.forall_mem_cons]

theorem renderItems_eq (xs : List Json) : renderItems xs = (xs.flatMap fun x => ',' :: x.render) ++ [']'] := by
  induction xs with
  | nil => rfl
  | cons x xs ih => simp [renderItems,ih]

def renderField (f : String × Json) : List Char := quote f.1 ++ ':' :: f.2.render

theorem renderFields_eq (fs : List (String × Json)) :
    renderFields fs = (fs.flatMap fun f => ',' :: renderField f) ++ ['\x7d'] := by
  induction fs with
  | nil => rfl
  | cons f fs ih => simp [renderFields,renderField,ih]

theorem opens_of_isDigit {c : Char} (digit : c.isDigit) : isSpace c = false ∧ c ≠ ']' := by
  have marks : ∀ d ∈ [' ','\t','\n','\r',']'], ¬ d.isDigit := by simp
  have other : c ∉ [' ','\t','\n','\r',']'] := fun member => marks c member digit
  simpa [isSpace,and_assoc] using other

/-- A value begins with a mark that closes no list. -/
theorem render_opens (j : Json) : Opens ']' j.render := by
  match j with
  | null => exact ⟨'n',_,by rw [render],by decide⟩
  | bool true => exact ⟨'t',_,by rw [render],by decide⟩
  | bool false => exact ⟨'f',_,by rw [render],by decide⟩
  | num n =>
    obtain ⟨c,cs,chars,digit | rfl⟩ := number_head n
    · exact ⟨c,cs,by rw [render,chars],opens_of_isDigit digit⟩
    · exact ⟨'-',cs,by rw [render,chars],by decide⟩
  | str s => exact ⟨'"',_,by rw [render,quote,List.cons_append],by decide⟩
  | arr [] => exact ⟨'[',_,by rw [render],by decide⟩
  | arr (x :: xs) => exact ⟨'[',_,by rw [render,List.cons_append],by decide⟩
  | obj [] => exact ⟨'\x7b',_,by rw [render],by decide⟩
  | obj ((k,v) :: fs) => exact ⟨'\x7b',_,by rw [render,List.cons_append,List.cons_append],by decide⟩

theorem renderField_opens (f : String × Json) : Opens '\x7d' (renderField f) :=
  ⟨'"',_,by rw [renderField,quote,List.cons_append,List.cons_append],by decide⟩

theorem ends_of_goesOn {j : Json} {close : Char} {rest : List Char} (goes : GoesOn close rest)
    (mark : isNumeral close = false) : Ends j rest := by
  intro _ _ c front
  rcases goes with comma | closing
  · obtain rfl : ',' = c := by simpa [comma] using front
    decide
  · obtain rfl : close = c := by simpa [closing] using front
    simp [mark]

/-- Where no level is left, and where no bracket opens, only values without brackets are read. -/
theorem readValue_eq_readPlain {levels : Nat} {cs : List Char}
    (closed : levels = 0 ∨ cs.head? ≠ some '[' ∧ cs.head? ≠ some '\x7b') : readValue levels cs = readPlain cs := by
  unfold readValue
  split <;> simp_all

theorem readPlain_bracket {c : Char} (bracket : c = '[' ∨ c = '\x7b') (cs : List Char) : readPlain (c :: cs) = none := by
  rcases bracket with rfl | rfl <;> simp [readPlain,readNumber,readDigits]

theorem readValue_flat {levels : Nat} {j : Json} (flat : j.nesting = 0) {rest : List Char} (ends : Ends j rest) :
    readValue levels (j.render ++ rest) = some (j,rest) := by
  match j with
  | null => simp [render,readValue_eq_readPlain,readPlain]
  | bool true => simp [render,readValue_eq_readPlain,readPlain]
  | bool false => simp [render,readValue_eq_readPlain,readPlain]
  | num n =>
    obtain ⟨c,cs,chars,first⟩ := number_head n
    rw [render,readValue_eq_readPlain (.inr ?_),readPlain_num ends]
    rw [chars]
    constructor <;> simp <;> rintro rfl <;> revert first <;> decide
  | str s => simp [render,quote,readValue_eq_readPlain,readPlain,readText_quoted]
  | arr items => simp [nesting] at flat
  | obj fields => simp [nesting] at flat

theorem readField_written {levels : Nat} {f : String × Json} {rest : List Char}
    (value : readValue levels (f.2.render ++ rest) = if f.2.nesting ≤ levels then some (f.2,rest) else none) :
    readField (readValue levels) (renderField f ++ rest) = if f.2.nesting ≤ levels then some (f,rest) else none := by
  obtain ⟨c,cs,front,visible,_⟩ := render_opens f.2
  have start : skipSpace (f.2.render ++ rest) = f.2.render ++ rest := by
    rw [front,List.cons_append,skipSpace_cons visible]
  have colon : skipSpace (':' :: (f.2.render ++ rest)) = ':' :: (f.2.render ++ rest) := skipSpace_cons (by decide) _
  simp only [renderField,quote,List.cons_append,List.append_assoc,List.nil_append,readField,readText_quoted,
    Option.bind_eq_bind,Option.bind_some,colon,start,value]
  split <;> rfl

theorem readValue_arr {levels : Nat} {items : List Json} {rest : List Char}
    (value : ∀ x ∈ items, ∀ rest, Ends x rest →
      readValue levels (x.render ++ rest) = if x.nesting ≤ levels then some (x,rest) else none) :
    readValue (levels + 1) ((arr items).render ++ rest) =
      if (arr items).nesting ≤ levels + 1 then some (arr items,rest) else none := by
  simp only [nesting,Nat.add_le_add_iff_right,nestingItems_le_iff]
  cases items with
  | nil => simp [render,readValue,readList,skipSpace,isSpace]
  | cons x xs =>
    have takes (y : Json) (member : y ∈ x :: xs) :
        Takes (readValue levels) render (fun y => y.nesting ≤ levels) (GoesOn ']') y :=
      fun rest goes => value y member rest (ends_of_goesOn goes rfl)
    have parts := readList_cons takes render_opens (by decide) rfl rest
    simp only [render,renderItems_eq,List.cons_append,List.append_assoc,List.nil_append,readValue] at parts ⊢
    rw [parts]
    split <;> rfl

theorem readValue_obj {levels : Nat} {fields : List (String × Json)} {rest : List Char}
    (value : ∀ f ∈ fields, ∀ rest, Ends f.2 rest →
      readValue levels (f.2.render ++ rest) = if f.2.nesting ≤ levels then some (f.2,rest) else none) :
    readValue (levels + 1) ((obj fields).render ++ rest) =
      if (obj fields).nesting ≤ levels + 1 then some (obj fields,rest) else none := by
  simp only [nesting,Nat.add_le_add_iff_right,nestingFields_le_iff]
  cases fields with
  | nil => simp [render,readValue,readList,skipSpace,isSpace]
  | cons f fs =>
    have takes (g : String × Json) (member : g ∈ f :: fs) :
        Takes (readField (readValue levels)) renderField (fun g => g.2.nesting ≤ levels) (GoesOn '\x7d') g :=
      fun rest goes => readField_written (value g member rest (ends_of_goesOn goes rfl))
    have parts := readList_cons takes renderField_opens (by decide) rfl rest
    have text : (obj (f :: fs)).render = '\x7b' :: (renderField f ++ renderFields fs) := by
      simp [render,renderField]
    simp only [List.append_assoc] at parts
    simp only [text,renderFields_eq,List.cons_append,List.append_assoc,List.nil_append,readValue]
    rw [parts]
    split <;> rfl

theorem render_bracket {j : Json} (deep : j.nesting ≠ 0) :
    ∃ c cs, (c = '[' ∨ c = '\x7b') ∧ j.render = c :: cs := by
  match j with
  | arr [] => exact ⟨'[',_,.inl rfl,by rw [render]⟩
  | arr (x :: xs) => exact ⟨'[',_,.inl rfl,by rw [render,List.cons_append]⟩
  | obj [] => exact ⟨'\x7b',_,.inr rfl,by rw [render]⟩
  | obj ((k,v) :: fs) => exact ⟨'\x7b',_,.inr rfl,by rw [render,List.cons_append,List.cons_append]⟩
  | null | bool _ | num _ | str _ => exact absurd rfl deep

/-- A value is read back whatever comes after it, if its brackets do not nest too deep, and refused otherwise. -/
theorem readValue_render {levels : Nat} {j : Json} {rest : List Char} (ends : Ends j rest) :
    readValue levels (j.render ++ rest) = if j.nesting ≤ levels then some (j,rest) else none := by
  induction levels generalizing j rest with
  | zero =>
    by_cases flat : j.nesting = 0
    · rw [readValue_flat flat ends,if_pos (Nat.le_of_eq flat)]
    · obtain ⟨c,cs,bracket,front⟩ := render_bracket flat
      rw [readValue_eq_readPlain (.inl rfl),front,List.cons_append,readPlain_bracket bracket,if_neg (by omega)]
  | succ levels ih =>
    cases j with
    | arr items => exact readValue_arr fun x _ _ ends => ih ends
    | obj fields => exact readValue_obj fun f _ _ ends => ih ends
    | null | bool _ | num _ | str _ => exact (readValue_flat rfl ends).trans (if_pos (Nat.zero_le _)).symm

/-- The text of a value reads as this value, or is refused for its depth. -/
theorem ofText?_compact (j : Json) : ofText? j.compact = if j.nesting ≤ maxNesting then some j else none := by
  obtain ⟨c,cs,front,visible,_⟩ := render_opens j
  have value : readValue maxNesting (j.render ++ []) = _ := readValue_render (ends_nil j)
  rw [List.append_nil] at value
  have start : skipSpace j.render = j.render := by rw [front,skipSpace_cons visible]
  rw [ofText?,readSpaced,compact,String.toList_ofList,start,value]
  split <;> rfl

example : ofText? " [ -1 , \"\\u00e9\\ud83d\\ude00\" ,true]\n" = some (.arr [.num (-1),.str "é😀",.bool true]) := rfl

/-- Two values whose texts stand at the front of one text are the same value. -/
theorem render_append_inj {j k : Json} {r s : List Char} (endsLeft : Ends j r) (endsRight : Ends k s)
    (same : j.render ++ r = k.render ++ s) : j = k ∧ r = s := by
  let levels := max j.nesting k.nesting
  have left : readValue levels (j.render ++ r) = _ := readValue_render endsLeft
  have right : readValue levels (k.render ++ s) = _ := readValue_render endsRight
  rw [if_pos (Nat.le_max_left ..)] at left
  rw [if_pos (Nat.le_max_right ..),← same,left] at right
  simpa using right

/-- The bytes of an object's text say where they end. -/
theorem compact_append_inj {fs gs : List (String × Json)} {rest rest' : List UInt8}
    (same : Text.utf8 (obj fs).compact ++ rest = Text.utf8 (obj gs).compact ++ rest') :
    fs = gs ∧ rest = rest' := by
  have ends (hs : List (String × Json)) (more : List Char) : Ends (obj hs) more := fun _ other => by cases other
  have fields : obj fs = obj gs := by
    rcases Text.prefix_or_prefix_of_utf8 same with ⟨more,longer⟩ | ⟨more,longer⟩
    · refine (render_append_inj (ends fs more) (ends_nil _) ?_).1
      simpa [compact] using longer
    · refine (render_append_inj (ends gs more) (ends_nil _) ?_).1.symm
      simpa [compact] using longer
  obtain rfl : fs = gs := by simpa using fields
  exact ⟨rfl,List.append_cancel_left same⟩

end Values

end InlineIcons.Json
