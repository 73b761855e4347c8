import InlineIcons.Proofs.Identifier
import InlineIcons.Source.Token
import Mathlib.Data.List.TakeWhile
import Mathlib.Tactic.Common

/-! How words, marks and brackets are told apart in a text, and which trees they make. A word is read up to its end
wherever it stands before a character that no word can go on with. -/
namespace InlineIcons

theorem Text.isWordStart_of_isDigit {c : Char} (digit : c.isDigit = true) : isWordStart c = false := by
  have letter : c.isAlphanum := by rw [Char.isAlphanum,digit,Bool.or_true]
  exact Stem.forall_isAlphanum (p := fun c => c.isDigit = true → isWordStart c = false) (by decide) letter digit

namespace Source

namespace Quoted

variable {cs : List Char}

theorem rawLiteralLength?_eq_none (q : Quoting) (quoteless : '"' ∉ cs) : rawLiteralLength? q cs = none := by
  simp only [rawLiteralLength?]
  split
  · next rest split =>
    have inside : '"' ∈ cs.drop (cs.takeWhile (· = '#')).length := split ▸ List.mem_cons_self
    exact absurd (List.mem_of_mem_drop inside) quoteless
  · rfl

theorem length?_eq_none (quoteless : '"' ∉ cs) (quoteless' : '\'' ∉ cs) : length? cs = none := by
  have raw : ∀ q rest, rest <:+ cs → rawLiteralLength? q rest = none := fun q rest ends =>
    rawLiteralLength?_eq_none q fun inside => quoteless (ends.subset inside)
  simp only [length?,Option.map_eq_none_iff]
  split
  · exact absurd List.mem_cons_self quoteless
  · exact absurd List.mem_cons_self quoteless'
  · next rest => rw [raw .text rest (List.suffix_cons _ _),Option.map_none]
  · exact absurd (by simp) quoteless
  · exact absurd (by simp) quoteless'
  · next rest => rw [raw .bytes rest ((List.suffix_cons _ _).trans (List.suffix_cons _ _)),Option.map_none]
  · exact absurd (by simp) quoteless
  · next rest => rw [raw .terminated rest ((List.suffix_cons _ _).trans (List.suffix_cons _ _)),Option.map_none]
  · rfl

end Quoted

namespace Number

variable {c : Char}

theorem digitsLength?_eq_none (letter : c.isDigit = false) (cs : List Char) :
    digitsLength? 10 true 0 (c :: cs) = none := by
  rw [digitsLength?]
  by_cases bar : c = '_'
  · rw [if_pos bar,if_pos ⟨rfl,rfl⟩]
  · rw [if_neg bar,Text.hexValue?,if_neg (by simp [letter])]
    split
    · rfl
    · next d value =>
      have large : ¬ d < 10 := by
        split at value
        · next low =>
          have least : 97 ≤ c.toNat := low.1
          cases value
          omega
        · split at value
          · next low =>
            have least : 65 ≤ c.toNat := low.1
            cases value
            omega
          · cases value
      rw [if_neg large,letter]
      rfl

theorem length?_eq_none (starts : Text.isWordStart c = true) (cs : List Char) : length? (c :: cs) = none := by
  have letter : c.isDigit = false := by
    by_contra digit
    rw [Text.isWordStart_of_isDigit (by simpa using digit)] at starts
    cases starts
  have noFraction : fractionLength? (c :: cs) = none := by
    rw [fractionLength?,if_neg]
    simp [letter]
  have noInteger : integerLength? (c :: cs) = none := by
    unfold integerLength?
    split
    case h_4 => exact digitsLength?_eq_none letter cs
    all_goals
      next same =>
        rw [(List.cons.inj same).1] at letter
        cases letter
  rw [length?,noFraction,noInteger]
  rfl

end Number

namespace Lexeme

section Starts

variable {c : Char}

def separatorCodes : List Nat :=
  List.range' 9 5 ++ (List.range' 0x2000 11 ++ [0x20,0x85,0xA0,0x1680,0x200E,0x200F,0x2028,0x2029,0x202F,0x205F,0x3000])

theorem mem_separatorCodes (separates : isSeparator c = true) : c.toNat ∈ separatorCodes := by
  have low : ∀ n, 9 ≤ n → n ≤ 13 → n ∈ separatorCodes := fun n least most =>
    List.mem_append_left _ (List.mem_range'_1.mpr ⟨least,by omega⟩)
  have spaces : ∀ n, 0x2000 ≤ n → n ≤ 0x200A → n ∈ separatorCodes := fun n least most =>
    List.mem_append_right _ (List.mem_append_left _ (List.mem_range'_1.mpr ⟨least,by omega⟩))
  simp only [isSeparator,Text.isBlank,Bool.or_eq_true,Bool.and_eq_true,decide_eq_true_eq] at separates
  rcases separates with (blank | rfl) | rfl
  · rcases blank with (((((((((code | code) | code) | code) | code) | code) | code) | code) | code) | code) | code
    all_goals first | exact low _ code.1 code.2 | exact spaces _ code.1 code.2 | rw [code]; decide
  · decide
  · decide

theorem isWordStart_of_isSeparator (separates : isSeparator c = true) : Text.isWordStart c = false := by
  have table : ∀ n ∈ separatorCodes, Text.isWordStart (Char.ofNat n) = false := by decide +kernel
  rw [← Char.ofNat_toNat c]
  exact table c.toNat (mem_separatorCodes separates)

theorem isWordStart_of_isMark (marks : isMark c = true) : Text.isWordStart c = false := by
  have table : "~!@#$%^&*-=+|;:,<.>/?'".toList.any Text.isWordStart = false := by decide
  exact Bool.eq_false_iff.mpr (List.any_eq_false.mp table c (List.contains_iff_mem.mp marks))

theorem find?_opening (starts : Text.isWordStart c = true) : Delimiter.all.find? (·.opening = c) = none := by
  refine List.find?_eq_none.mpr fun d _ same => ?_
  rw [← of_decide_eq_true same] at starts
  cases d <;> exact absurd starts (by decide)

theorem find?_closing (starts : Text.isWordStart c = true) : Delimiter.all.find? (·.closing = c) = none := by
  refine List.find?_eq_none.mpr fun d _ same => ?_
  rw [← of_decide_eq_true same] at starts
  cases d <;> exact absurd starts (by decide)

end Starts

/-- A word of program text, with `r#` before it or without. -/
inductive Word : List Char → Prop
  | plain {c : Char} {cs : List Char} (starts : Text.isWordStart c = true)
    (further : ∀ d ∈ cs, Text.isWordContinue d = true) : Word (c :: cs)
  | raw {c : Char} {cs : List Char} (starts : Text.isWordStart c = true)
    (further : ∀ d ∈ cs, Text.isWordContinue d = true) (free : String.ofList (c :: cs) ∉ fixedWords) :
    Word ('r' :: '#' :: c :: cs)

/-- What may follow a word so that nothing more belongs to it. -/
def EndsWord (cs : List Char) : Prop := ∀ c ∈ cs.head?, Text.isWordContinue c = false ∧ c ≠ '#'

/-- A text without quotes and without the mark of byte order. -/
def Unquoted (cs : List Char) : Prop := ∀ c ∈ cs, c ∉ ['"','\'','\ufeff']

variable {c : Char} {cs rest word : List Char}

theorem EndsWord.append (ends : EndsWord cs) (ends' : EndsWord rest) : EndsWord (cs ++ rest) := by
  cases cs with
  | nil => exact ends'
  | cons c cs => exact ends

theorem EndsWord.mark (marks : c ∈ [' ',':','<','>',',']) (cs : List Char) : EndsWord (c :: cs) := by
  simp only [List.mem_cons,List.not_mem_nil,or_false] at marks
  rcases marks with rfl | rfl | rfl | rfl | rfl
  all_goals simp [EndsWord,Text.isWordContinue]

theorem Unquoted.append (clean : Unquoted cs) (clean' : Unquoted rest) : Unquoted (cs ++ rest) := by
  intro c member
  rcases List.mem_append.mp member with before | after
  · exact clean c before
  · exact clean' c after

theorem wordLength_eq_length_iff : Text.wordLength (c :: cs) = (c :: cs).length ↔
    Text.isWordStart c = true ∧ ∀ d ∈ cs, Text.isWordContinue d = true := by
  rw [Text.wordLength,List.length_cons]
  by_cases starts : Text.isWordStart c = true
  · rw [if_pos starts,and_iff_right starts,Nat.add_comm 1,Nat.add_right_cancel_iff]
    constructor
    · intro same
      rw [← List.takeWhile_eq_self_iff]
      exact (List.takeWhile_prefix _).eq_of_length same
    · intro further
      rw [List.takeWhile_eq_self_iff.mpr further]
  · rw [if_neg starts]
    exact iff_of_false (by omega) fun whole => starts whole.1

theorem Word.of_word? {text : String} (read : Lexeme.word? cs = some (text,cs.length)) : Word cs := by
  unfold Lexeme.word? at read
  split at read
  · next rest =>
    simp only [Option.ite_none_left_eq_some,Option.some.injEq,Prod.mk.injEq,not_or,List.length_cons] at read
    obtain ⟨⟨filled,free⟩,_,whole⟩ := read
    rcases rest with _ | ⟨c,rest⟩
    · exact absurd rfl filled
    · have length : Text.wordLength (c :: rest) = (c :: rest).length := by omega
      rw [length,List.take_length] at free
      obtain ⟨starts,further⟩ := wordLength_eq_length_iff.mp length
      exact .raw starts further free
  · simp only [Option.ite_none_left_eq_some,Option.some.injEq,Prod.mk.injEq] at read
    obtain ⟨filled,_,whole⟩ := read
    rcases cs with _ | ⟨c,cs⟩
    · exact absurd rfl filled
    · obtain ⟨starts,further⟩ := wordLength_eq_length_iff.mp whole
      exact .plain starts further

theorem wordLength_append (starts : Text.isWordStart c = true) (further : ∀ d ∈ cs, Text.isWordContinue d = true)
    (ends : EndsWord rest) : Text.wordLength (c :: (cs ++ rest)) = cs.length + 1 := by
  have stops : rest.takeWhile Text.isWordContinue = [] := by
    rcases rest with _ | ⟨d,rest⟩
    · rfl
    · rw [List.takeWhile_cons,(ends d rfl).1]
      rfl
  rw [Text.wordLength,if_pos starts,List.takeWhile_append_of_pos further,stops,List.append_nil,Nat.add_comm]

theorem head?_ne_hash (further : ∀ d ∈ cs, Text.isWordContinue d = true) (ends : EndsWord rest) :
    (cs ++ rest).head? ≠ some '#' := by
  intro hash
  rcases cs with _ | ⟨d,cs⟩
  · exact (ends '#' hash).2 rfl
  · have letter := further d List.mem_cons_self
    rw [Option.some.inj hash] at letter
    cases letter

theorem ne_letter_hash (further : ∀ d ∈ cs, Text.isWordContinue d = true) (ends : EndsWord rest) {d : Char}
    (letter : Text.isWordContinue d = true) (more : List Char) : cs ++ rest ≠ d :: '#' :: more := by
  intro same
  rcases cs with _ | ⟨e,cs⟩
  · rw [(ends d (congrArg List.head? same)).1] at letter
    cases letter
  · have hash : (cs ++ rest).head? = some '#' := congrArg List.head? (List.cons.inj same).2
    exact head?_ne_hash (fun d inside => further d (List.mem_cons_of_mem _ inside)) ends hash

namespace Word

theorem begins (w : Word word) : ∃ c cs, word = c :: cs ∧ Text.isWordStart c = true := by
  cases w with
  | plain starts further => exact ⟨_,_,rfl,starts⟩
  | raw starts further free => exact ⟨_,_,rfl,by decide⟩

theorem unquoted (w : Word word) : Unquoted word := by
  have start : ∀ c, Text.isWordStart c = true → c ∉ ['"','\'','\ufeff'] := by
    have table : ['"','\'','\ufeff'].any Text.isWordStart = false := by decide +kernel
    exact fun c starts quote => List.any_eq_false.mp table c quote starts
  have later : ∀ c, Text.isWordContinue c = true → c ∉ ['"','\'','\ufeff'] := by
    have table : ['"','\'','\ufeff'].any Text.isWordContinue = false := by decide +kernel
    exact fun c letter quote => List.any_eq_false.mp table c quote letter
  cases w with
  | plain starts further => exact List.forall_mem_cons.mpr ⟨start _ starts,fun d inside => later d (further d inside)⟩
  | raw starts further free =>
    refine List.forall_mem_cons.mpr ⟨by decide,List.forall_mem_cons.mpr ⟨by decide,List.forall_mem_cons.mpr ?_⟩⟩
    exact ⟨start _ starts,fun d inside => later d (further d inside)⟩

theorem word? (w : Word word) (ends : EndsWord rest) :
    Lexeme.word? (word ++ rest) = some (String.ofList word,word.length) := by
  cases w with
  | @plain c cs starts further =>
    have length := wordLength_append starts further ends
    unfold Lexeme.word?
    split
    · next rest' same =>
      have hash : (cs ++ rest).head? = some '#' := congrArg List.head? (List.cons.inj same).2
      exact absurd hash (head?_ne_hash further ends)
    · simp only [List.cons_append,length,List.take_succ_cons,List.take_left,Nat.succ_ne_zero,if_false,
        List.length_cons]
  | @raw c cs starts further free =>
    have length := wordLength_append starts further ends
    simp only [List.cons_append,Lexeme.word?,length,List.take_succ_cons,List.take_left,Nat.succ_ne_zero,free,or_self,
      if_false,List.length_cons]

/-- No literal begins where a word stands. -/
theorem not_literal (w : Word word) (ends : EndsWord rest) (unquoted : Unquoted (word ++ rest)) :
    literalOpenings.any (·.isPrefixOf (word ++ rest)) = false := by
  rw [List.any_eq_false]
  intro opening member opens
  obtain ⟨more,split⟩ := List.isPrefixOf_iff_prefix.mp opens
  have hashed : opening ∈ [['r','#','#'],['b','r','#'],['c','r','#']] := by
    have table : ∀ o ∈ literalOpenings, '"' ∈ o ∨ '\'' ∈ o ∨ o ∈ [['r','#','#'],['b','r','#'],['c','r','#']] := by
      decide
    have inside : ∀ c ∈ opening, c ∈ word ++ rest := fun c inside => split ▸ List.mem_append_left _ inside
    rcases table opening member with quote | quote | hashed
    · exact absurd (by simp) (unquoted _ (inside _ quote))
    · exact absurd (by simp) (unquoted _ (inside _ quote))
    · exact hashed
  simp only [List.mem_cons,List.not_mem_nil,or_false] at hashed
  cases w with
  | plain starts further =>
    rcases hashed with rfl | rfl | rfl
    · exact head?_ne_hash further ends (congrArg List.head? (List.cons.inj split).2.symm)
    · exact ne_letter_hash further ends (by decide) more (List.cons.inj split).2.symm
    · exact ne_letter_hash further ends (by decide) more (List.cons.inj split).2.symm
  | raw starts further free =>
    rcases hashed with rfl | rfl | rfl
    · rw [← (List.cons.inj (List.cons.inj (List.cons.inj split).2).2).1] at starts
      cases starts
    · exact absurd (List.cons.inj split).1 (by decide)
    · exact absurd (List.cons.inj split).1 (by decide)

theorem front? (w : Word word) (ends : EndsWord rest) (unquoted : Unquoted (word ++ rest)) :
    Lexeme.front? (word ++ rest) = some ([.word (String.ofList word)],word.length) := by
  have read := w.word? ends
  have noLiteral := w.not_literal ends unquoted
  have noQuoted := Quoted.length?_eq_none (fun inside => unquoted _ inside (by simp))
    fun inside => unquoted _ inside (by simp)
  obtain ⟨c,cs,rfl,starts⟩ := w.begins
  have noMark : isMark c = false := by
    by_contra marks
    rw [isWordStart_of_isMark (by simpa using marks)] at starts
    cases starts
  have visible : isSeparator c = false := by
    by_contra separates
    rw [isWordStart_of_isSeparator (by simpa using separates)] at starts
    cases starts
  have noComment : beginsComment (c :: (cs ++ rest)) = false := by
    have slash : c ≠ '/' := by
      rintro rfl
      cases noMark
    simp [beginsComment,List.isPrefixOf,slash.symm]
  have leaf : leaf? (c :: (cs ++ rest)) = some (.word (String.ofList (c :: cs)),(c :: cs).length) := by
    have apart : mark? (c :: (cs ++ rest)) = none := by simp [mark?,beginsMark,noMark]
    rw [List.cons_append] at noQuoted noLiteral read
    rw [leaf?,noQuoted,Number.length?_eq_none starts,apart,noLiteral,read]
    rfl
  rw [List.cons_append,Lexeme.front?,visible,noComment,find?_opening starts,find?_closing starts,leaf]
  rfl

end Word

theorem front?_mark (marks : c ∈ [':','<','>','&',',']) (cs : List Char) :
    Lexeme.front? (c :: cs) = some ([.mark c (beginsMark cs)],1) := by
  simp only [List.mem_cons,List.not_mem_nil,or_false] at marks
  rcases marks with rfl | rfl | rfl | rfl | rfl <;> rfl

theorem front?_opening (d : Delimiter) (cs : List Char) : Lexeme.front? (d.opening :: cs) = some ([.opening d],1) := by
  cases d <;> rfl

theorem front?_closing (d : Delimiter) (cs : List Char) : Lexeme.front? (d.closing :: cs) = some ([.closing d],1) := by
  cases d <;> rfl

end Lexeme

/-! Trees. A text is read on from a place between trees that are done and brackets that are open. -/

namespace TokenTree

variable {p : Position} {frames : List Frame} {done : List TokenTree} {cs rest : List Char} {bound : Nat}

theorem exists_bound {c : Char} (enough : (c :: cs).length ≤ bound) : ∃ n, bound = n + 1 ∧ cs.length ≤ n := by
  rw [List.length_cons] at enough
  exact ⟨bound - 1,by omega,by omega⟩

/-- The trees of a text that is read on; the bound is the number of its characters. -/
def readWithin (bound : Nat) (p : Position) (frames : List Frame) (done : List TokenTree) (cs : List Char) :
    Except Position (List TokenTree) :=
  nest (Scanned.from p [] bound cs).fault frames done (Scanned.from p [] bound cs).lexemes

theorem from_eq (bound : Nat) (p : Position) (before : List (Position × Lexeme)) (cs : List Char) :
    Scanned.from p before bound cs =
      ⟨before.reverse ++ (Scanned.from p [] bound cs).lexemes,(Scanned.from p [] bound cs).fault⟩ := by
  induction bound generalizing p before cs with
  | zero => simp [Scanned.from]
  | succ bound ih =>
    cases cs with
    | nil => simp [Scanned.from]
    | cons c cs =>
      cases front : Lexeme.front? (c :: cs) with
      | none => simp [Scanned.from,front]
      | some read =>
        simp only [Scanned.from,front]
        rw [ih,ih _ ((read.1.map (p,·)).reverse ++ [])]
        simp

theorem readWithin_succ {lexemes : List Lexeme} {count : Nat} (front : Lexeme.front? cs = some (lexemes,count)) :
    readWithin (bound + 1) p frames done cs =
      nest (Scanned.from (p.past (cs.take count)) [] bound (cs.drop count)).fault frames done
        (lexemes.map (p,·) ++ (Scanned.from (p.past (cs.take count)) [] bound (cs.drop count)).lexemes) := by
  have filled : cs ≠ [] := by
    rintro rfl
    cases front
  have step : Scanned.from p [] (bound + 1) cs =
      Scanned.from (p.past (cs.take count)) ((lexemes.map (p,·)).reverse ++ []) bound (cs.drop count) := by
    rw [Scanned.from,front]
    exact filled
  rw [readWithin,step,from_eq]
  simp

theorem readWithin_word {word : List Char} (w : Lexeme.Word word) (ends : Lexeme.EndsWord rest)
    (unquoted : Lexeme.Unquoted (word ++ rest)) : readWithin (bound + 1) p frames done (word ++ rest) =
      readWithin bound (p.past word) frames (.word (String.ofList word) p :: done) rest := by
  rw [readWithin_succ (w.front? ends unquoted),List.take_left,List.drop_left]
  rfl

theorem readWithin_mark {c : Char} (marks : c ∈ [':','<','>','&',',']) (cs : List Char) :
    readWithin (bound + 1) p frames done (c :: cs) =
      readWithin bound (p.after c) frames (.mark c (Lexeme.beginsMark cs) p :: done) cs := by
  rw [readWithin_succ (Lexeme.front?_mark marks cs)]
  rfl

theorem readWithin_blank (cs : List Char) : readWithin (bound + 1) p frames done (' ' :: cs) =
    readWithin bound (p.after ' ') frames done cs := by
  have front : Lexeme.front? (' ' :: cs) = some ([],1) := rfl
  rw [readWithin_succ front]
  rfl

theorem readWithin_opening (d : Delimiter) (cs : List Char) : readWithin (bound + 1) p frames done (d.opening :: cs) =
    readWithin bound (p.after d.opening) (⟨d,p,done⟩ :: frames) [] cs := by
  rw [readWithin_succ (Lexeme.front?_opening d cs)]
  rfl

theorem readWithin_closing (d : Delimiter) (place : Position) (before : List TokenTree) (cs : List Char) :
    readWithin (bound + 1) p (⟨d,place,before⟩ :: frames) done (d.closing :: cs) =
      readWithin bound (p.after d.closing) frames (.group d place p done.reverse :: before) cs := by
  rw [readWithin_succ (Lexeme.front?_closing d cs)]
  simp only [List.map_cons,List.map_nil,List.cons_append,List.nil_append,nest,if_true]
  rfl

/-- A text that makes trees of the given kind, whatever is open around it and whatever follows that ends a word. -/
structure Makes (cs : List Char) (kind : List TokenTree → Prop) : Prop where
  unquoted : Lexeme.Unquoted cs
  made : ∀ rest, Lexeme.EndsWord rest → Lexeme.Unquoted rest → ∀ bound p frames done, (cs ++ rest).length ≤ bound →
    ∃ ts p' bound', kind ts ∧ rest.length ≤ bound' ∧
      readWithin bound p frames done (cs ++ rest) = readWithin bound' p' frames (ts.reverse ++ done) rest

namespace Makes

variable {kind kind' : List TokenTree → Prop}

theorem mono (makes : Makes cs kind) (weaker : ∀ ts, kind ts → kind' ts) : Makes cs kind' := by
  refine ⟨makes.unquoted,fun rest ends clean bound p frames done enough => ?_⟩
  obtain ⟨ts,p',bound',fits,short,read⟩ := makes.made rest ends clean bound p frames done enough
  exact ⟨ts,p',bound',weaker ts fits,short,read⟩

theorem nil : Makes [] (· = []) :=
  ⟨by simp [Lexeme.Unquoted],fun _ _ _ bound p _ _ enough => ⟨[],p,bound,rfl,enough,rfl⟩⟩

theorem append {cs' : List Char} (makes : Makes cs kind) (makes' : Makes cs' kind') (ends : Lexeme.EndsWord cs') :
    Makes (cs ++ cs') fun ts => ∃ before after, ts = before ++ after ∧ kind before ∧ kind' after := by
  refine ⟨makes.unquoted.append makes'.unquoted,fun rest ends' clean bound p frames done enough => ?_⟩
  rw [List.append_assoc] at enough ⊢
  obtain ⟨before,p₁,bound₁,fits,enough₁,read⟩ :=
    makes.made (cs' ++ rest) (ends.append ends') (makes'.unquoted.append clean) bound p frames done enough
  obtain ⟨after,p₂,bound₂,fits',enough₂,read'⟩ := makes'.made rest ends' clean bound₁ p₁ frames _ enough₁
  refine ⟨before ++ after,p₂,bound₂,⟨before,after,rfl,fits,fits'⟩,enough₂,?_⟩
  rw [read,read',List.reverse_append,List.append_assoc]

theorem word {word : List Char} (w : Lexeme.Word word) :
    Makes word fun ts => ∃ place, ts = [.word (String.ofList word) place] := by
  refine ⟨w.unquoted,fun rest ends clean bound p frames done enough => ?_⟩
  have read : ∀ bound, readWithin (bound + 1) p frames done (word ++ rest) =
      readWithin bound (p.past word) frames (.word (String.ofList word) p :: done) rest :=
    fun bound => readWithin_word w ends (w.unquoted.append clean)
  obtain ⟨c,cs,rfl,_⟩ := w.begins
  obtain ⟨bound,rfl,room⟩ := exists_bound enough
  exact ⟨_,_,bound,⟨p,rfl⟩,Nat.le_trans (by simp) room,read bound⟩

theorem blank (makes : Makes cs kind) : Makes (' ' :: cs) kind := by
  refine ⟨List.forall_mem_cons.mpr ⟨by decide,makes.unquoted⟩,fun rest ends clean bound p frames done enough => ?_⟩
  obtain ⟨bound,rfl,room⟩ := exists_bound enough
  rw [List.cons_append,readWithin_blank]
  exact makes.made rest ends clean bound _ frames done room

theorem mark {c : Char} (marks : c ∈ [':','<','>','&',',']) (makes : Makes cs kind) :
    Makes (c :: cs) fun ts => ∃ joint place rest, ts = .mark c joint place :: rest ∧ kind rest := by
  have table : [':','<','>','&',','].any ['"','\'','\ufeff'].contains = false := by decide
  have apart : c ∉ ['"','\'','\ufeff'] := fun quote =>
    List.any_eq_false.mp table c marks (List.contains_iff_mem.mpr quote)
  refine ⟨List.forall_mem_cons.mpr ⟨apart,makes.unquoted⟩,fun rest ends clean bound p frames done enough => ?_⟩
  obtain ⟨bound,rfl,room⟩ := exists_bound enough
  obtain ⟨ts,p',bound',fits,short,read⟩ := makes.made rest ends clean bound (p.after c) frames
    (.mark c (Lexeme.beginsMark (cs ++ rest)) p :: done) room
  refine ⟨.mark c (Lexeme.beginsMark (cs ++ rest)) p :: ts,p',bound',⟨_,p,ts,rfl,fits⟩,short,?_⟩
  rw [List.cons_append,readWithin_mark marks,read,List.reverse_cons,List.append_assoc]
  rfl

/-- Two colons make one mark. -/
theorem colons (makes : Makes cs kind) : Makes (':' :: ':' :: cs) fun ts =>
    ∃ place joint place' rest, ts = .mark ':' true place :: .mark ':' joint place' :: rest ∧ kind rest := by
  have second := makes.mark (c := ':') (by decide)
  refine ⟨List.forall_mem_cons.mpr ⟨by decide,second.unquoted⟩,fun rest ends clean bound p frames done enough => ?_⟩
  obtain ⟨bound,rfl,room⟩ := exists_bound enough
  obtain ⟨_,p',bound',⟨joint,place,ts,rfl,fits⟩,short,read⟩ := second.made rest ends clean bound (p.after ':') frames
    (.mark ':' true p :: done) room
  refine ⟨.mark ':' true p :: .mark ':' joint place :: ts,p',bound',⟨p,joint,place,ts,rfl,fits⟩,short,?_⟩
  have joined : Lexeme.beginsMark (':' :: cs ++ rest) = true := rfl
  rw [List.cons_append,readWithin_mark (by decide),joined,read]
  simp

theorem group (d : Delimiter) (makes : Makes cs kind) : Makes (d.opening :: (cs ++ [d.closing])) fun ts =>
    ∃ place closing body, ts = [.group d place closing body] ∧ kind body := by
  have clean : d.opening ∉ ['"','\'','\ufeff'] ∧ Lexeme.Unquoted [d.closing] := by
    cases d <;> simp [Lexeme.Unquoted,Delimiter.opening,Delimiter.closing]
  have ends : ∀ rest, Lexeme.EndsWord (d.closing :: rest) := by
    cases d <;> simp [Lexeme.EndsWord,Delimiter.closing,Text.isWordContinue]
  refine ⟨List.forall_mem_cons.mpr ⟨clean.1,makes.unquoted.append clean.2⟩,
    fun rest _ clean' bound p frames done enough => ?_⟩
  obtain ⟨bound,rfl,room⟩ := exists_bound enough
  rw [List.append_eq,List.append_assoc] at room
  obtain ⟨ts,p₁,bound₁,fits,enough₁,read⟩ := makes.made ([d.closing] ++ rest) (ends rest) (clean.2.append clean') bound
    (p.after d.opening) (⟨d,p,done⟩ :: frames) [] room
  obtain ⟨bound₁,rfl,room₁⟩ := exists_bound enough₁
  refine ⟨[.group d p p₁ ts],p₁.after d.closing,bound₁,⟨p,p₁,ts,rfl,fits⟩,room₁,?_⟩
  rw [List.cons_append,readWithin_opening,List.append_assoc,read,List.singleton_append,readWithin_closing,
    List.append_nil,List.reverse_reverse]
  rfl

theorem ofChars (makes : Makes cs kind) : ∃ ts, kind ts ∧ TokenTree.ofChars cs = .ok ts := by
  obtain ⟨ts,p,bound,fits,_,read⟩ := makes.made [] (by simp [Lexeme.EndsWord]) (by simp [Lexeme.Unquoted]) cs.length
    .start [] [] (by simp)
  have unmarked : Scanned.ofChars cs = Scanned.from .start [] cs.length cs := by
    unfold Scanned.ofChars
    split
    · exact absurd (by simp) (makes.unquoted '\ufeff' List.mem_cons_self)
    · rfl
  refine ⟨ts,fits,?_⟩
  have done : TokenTree.ofChars cs = readWithin cs.length .start [] [] cs := by
    rw [TokenTree.ofChars,unmarked]
    rfl
  rw [List.append_nil,List.append_nil] at read
  rw [done,read]
  cases bound with
  | zero => simp [readWithin,Scanned.from,nest]
  | succ bound => simp [readWithin,Scanned.from,nest]

end Makes
end TokenTree
end Source
end InlineIcons
