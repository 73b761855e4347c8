import InlineIcons.Proofs.Literal
import InlineIcons.Proofs.Text.Cut
import InlineIcons.Source.Token

/-! String literals as they are defined: what stands between the quotes is a sequence of characters that stand for
themselves and of escapes, and spells one text. Quoting a text gives a literal that spells this text and no other, and
all of it is one token. -/
namespace InlineIcons.Literal

open Source

/-- What may follow a backslash on its own, and the character that it then means. -/
def shortEscapes : List (Char × Char) :=
  [('\\','\\'),('"','"'),('\'','\''),('n','\n'),('r','\r'),('t','\t'),('0','\x00')]

def hexNumber? (digits : List Char) : Option Nat :=
  digits.foldlM (fun n c => (Text.hexValue? c).map (16 * n + ·)) 0

/-- What the characters between the quotes of a literal spell. A quote or a backslash stands there in an escape only,
and so does a carriage return. -/
inductive Spells : List Char → List Char → Prop
  | nil : Spells [] []
  | plain {c : Char} {cs text : List Char} (noQuote : c ≠ '"') (noBackslash : c ≠ '\\') (noReturn : c ≠ '\r')
    (rest : Spells cs text) : Spells (c :: cs) (c :: text)
  | short {e c : Char} {cs text : List Char} (known : (e,c) ∈ shortEscapes) (rest : Spells cs text) :
    Spells ('\\' :: e :: cs) (c :: text)
  | scalar {digits cs text : List Char} {n : Nat} (filled : digits ≠ []) (fits : digits.length ≤ 6)
    (value : hexNumber? digits = some n) (valid : n.isValidChar) (rest : Spells cs text) :
    Spells ('\\' :: 'u' :: '\x7b' :: (digits ++ '\x7d' :: cs)) (.ofNat n :: text)

/-- Whether the character behind a text is escaped: a backslash that is not escaped itself stands before it. -/
def escapesNext (cs : List Char) : Bool := cs.foldl (fun escaped c => !escaped && c = '\\') false

theorem isSome_hexValue? {digits : List Char} {n : Nat} (value : hexNumber? digits = some n) :
    ∀ c ∈ digits, (Text.hexValue? c).isSome := by
  unfold hexNumber? at value
  generalize 0 = start at value
  induction digits generalizing start with
  | nil => nofun
  | cons d digits ih =>
    rw [List.foldlM_cons] at value
    obtain ⟨m,read,value⟩ := Option.bind_eq_some_iff.mp value
    refine List.forall_mem_cons.mpr ⟨?_,ih m value⟩
    exact Option.isSome_map.symm.trans (by rw [read]; rfl)

theorem not_mem_of_hexNumber? {digits : List Char} {n : Nat} {c : Char} (value : hexNumber? digits = some n)
    (other : Text.hexValue? c = none) : c ∉ digits := by
  intro member
  have known := isSome_hexValue? value c member
  rw [other] at known
  cases known

theorem shortEscapes_unique {e c c' : Char} (known : (e,c) ∈ shortEscapes) (known' : (e,c') ∈ shortEscapes) :
    c = c' := by
  have table : ∀ p ∈ shortEscapes, ∀ q ∈ shortEscapes, p.1 = q.1 → p.2 = q.2 := by decide
  exact table _ known _ known' rfl

theorem u_not_short {c : Char} : ('u',c) ∉ shortEscapes := by
  have table : ∀ p ∈ shortEscapes, p.1 ≠ 'u' := by decide
  exact fun known => table _ known rfl

/-- What stands between the quotes spells one text only. -/
theorem Spells.unique {cs cs' text text' : List Char} (one : Spells cs text) (two : Spells cs' text')
    (same : cs = cs') : text = text' := by
  induction one generalizing cs' text' with
  | nil =>
    cases two with
    | nil => rfl
    | plain => cases same
    | short => cases same
    | scalar => cases same
  | plain noQuote noBackslash noReturn rest ih =>
    cases two with
    | nil => cases same
    | plain _ _ _ rest' =>
      obtain ⟨rfl,tail⟩ := List.cons.inj same
      rw [ih rest' tail]
    | short => exact absurd (List.cons.inj same).1 noBackslash
    | scalar => exact absurd (List.cons.inj same).1 noBackslash
  | short known rest ih =>
    cases two with
    | nil => cases same
    | plain _ noBackslash => exact absurd (List.cons.inj same).1.symm noBackslash
    | short known' rest' =>
      simp only [List.cons.injEq,true_and] at same
      obtain ⟨rfl,tail⟩ := same
      rw [shortEscapes_unique known known',ih rest' tail]
    | scalar =>
      simp only [List.cons.injEq,true_and] at same
      exact absurd (same.1 ▸ known) u_not_short
  | scalar filled fits value valid rest ih =>
    cases two with
    | nil => cases same
    | plain _ noBackslash => exact absurd (List.cons.inj same).1.symm noBackslash
    | short known' =>
      simp only [List.cons.injEq,true_and] at same
      exact absurd (same.1 ▸ known') u_not_short
    | scalar _ _ value' _ rest' =>
      simp only [List.cons.injEq,true_and] at same
      have cut := congrArg (Text.cutAt? ['\x7d']) same
      rw [Text.cutAt?_single (not_mem_of_hexNumber? value (by decide)),
        Text.cutAt?_single (not_mem_of_hexNumber? value' (by decide))] at cut
      simp only [Option.some.injEq,Prod.mk.injEq] at cut
      obtain ⟨rfl,tail⟩ := cut
      rw [value,Option.some.injEq] at value'
      rw [value',ih rest' tail]

/-- Each quote in a text is escaped, and one that ends it would not be. -/
structure QuotesEscaped (cs : List Char) : Prop where
  inside : ∀ before after, cs = before ++ '"' :: after → escapesNext before = true
  behind : escapesNext cs = false

theorem QuotesEscaped.append {front cs : List Char} (first : QuotesEscaped front) (second : QuotesEscaped cs) :
    QuotesEscaped (front ++ cs) := by
  have onward : ∀ more, escapesNext (front ++ more) = escapesNext more := by
    intro more
    have stop := first.behind
    unfold escapesNext at stop ⊢
    rw [List.foldl_append,stop]
  refine ⟨fun before after whole => ?_,(onward cs).trans second.behind⟩
  rcases List.append_eq_append_iff.mp whole with ⟨more,rfl,rest⟩ | ⟨more,rfl,rest⟩
  · rw [onward]
    exact second.inside more after rest
  · cases more with
    | nil => exact absurd (second.inside [] after rest.symm) (by decide)
    | cons c more =>
      obtain ⟨rfl,_⟩ := List.cons.inj rest
      exact first.inside before more rfl

theorem QuotesEscaped.of_not_mem {cs : List Char} (noQuote : '"' ∉ cs) (behind : escapesNext cs = false) :
    QuotesEscaped cs :=
  ⟨fun before after whole => absurd (by simp [whole]) noQuote,behind⟩

theorem Spells.quotesEscaped {cs text : List Char} (spelt : Spells cs text) : QuotesEscaped cs := by
  induction spelt with
  | nil => exact .of_not_mem List.not_mem_nil rfl
  | @plain c cs _ noQuote noBackslash _ _ ih =>
    have single : QuotesEscaped [c] := .of_not_mem (by simpa using noQuote.symm) (by simp [escapesNext,noBackslash])
    exact single.append ih
  | @short e _ cs _ _ _ ih =>
    have pair : QuotesEscaped ['\\',e] := by
      refine ⟨fun before after whole => ?_,by simp [escapesNext]⟩
      match before with
      | [] => exact absurd (List.cons.inj whole).1 (by decide)
      | [c] =>
        rw [← (List.cons.inj whole).1]
        rfl
      | _ :: _ :: before => simp at whole
    exact pair.append ih
  | @scalar digits cs _ n _ _ value _ _ ih =>
    have braced : QuotesEscaped ('\\' :: 'u' :: '\x7b' :: digits ++ ['\x7d']) := by
      refine .of_not_mem ?_ ?_
      · simpa using not_mem_of_hexNumber? value (by decide)
      · rw [Literal.escapesNext,List.foldl_append]
        simp
    have whole := braced.append ih
    rwa [List.append_assoc,List.singleton_append] at whole

/-- The three forms in which quoting writes a character. -/
theorem escapeChar_form (c : Char) :
    (∃ e, (e,c) ∈ shortEscapes ∧ escapeChar c = ['\\',e]) ∨
    (∃ digits, digits ≠ [] ∧ digits.length ≤ 6 ∧ hexNumber? digits = some c.toNat ∧
      escapeChar c = '\\' :: 'u' :: '\x7b' :: (digits ++ ['\x7d'])) ∨
    (c ≠ '"' ∧ c ≠ '\\' ∧ c ≠ '\r' ∧ escapeChar c = [c]) := by
  by_cases small : c.toNat < 160
  · have table : ∀ n < 160, (∃ p ∈ shortEscapes, p.2 = .ofNat n ∧ escapeChar (.ofNat n) = ['\\',p.1]) ∨
        (hexDigits n ≠ [] ∧ (hexDigits n).length ≤ 6 ∧ hexNumber? (hexDigits n) = some (Char.ofNat n).toNat ∧
          escapeChar (.ofNat n) = '\\' :: 'u' :: '\x7b' :: (hexDigits n ++ ['\x7d'])) ∨
        (Char.ofNat n ≠ '"' ∧ Char.ofNat n ≠ '\\' ∧ Char.ofNat n ≠ '\r' ∧ escapeChar (.ofNat n) = [.ofNat n]) := by
      decide +kernel
    obtain ⟨n,fits,rfl⟩ := ofNat_toNat_small small
    rcases table n fits with ⟨⟨e,_⟩,known,rfl,written⟩ | numbered | plain
    · exact .inl ⟨e,known,written⟩
    · exact .inr (.inl ⟨_,numbered⟩)
    · exact .inr (.inr plain)
  · have large : 160 ≤ c.toNat := by omega
    exact .inr (.inr ⟨ne_of_large large (by decide),ne_of_large large (by decide),ne_of_large large (by decide),
      escapeChar_large large⟩)

theorem spells_escaped (cs : List Char) : Spells (cs.flatMap escapeChar) cs := by
  induction cs with
  | nil => exact .nil
  | cons c cs ih =>
    rw [List.flatMap_cons]
    rcases escapeChar_form c with
      ⟨e,known,written⟩ | ⟨digits,filled,fits,value,written⟩ | ⟨noQuote,other,noReturn,written⟩
    · rw [written]
      exact ih.short known
    · have spelt := ih.scalar filled fits value c.valid
      rw [Char.ofNat_toNat] at spelt
      rw [written]
      simpa using spelt
    · rw [written]
      exact ih.plain noQuote other noReturn

theorem front?_quoteChars (cs rest : List Char) (apart : Text.wordLength rest = 0) :
    Lexeme.front? (quoteChars cs ++ rest) = some ([.literal (.ofList (quoteChars cs))],(quoteChars cs).length) := by
  have whole : quoteChars cs ++ rest = '"' :: (cs.flatMap escapeChar ++ '"' :: rest) := by simp [quoteChars]
  have length : (quoteChars cs).length = (cs.flatMap escapeChar).length + 1 + 1 := by simp [quoteChars]
  have read : Quoted.length? (quoteChars cs ++ rest) = some (quoteChars cs).length := by
    rw [whole,Quoted.length?]
    simp only [read?_escaped,Option.map_some,Quoted.withSuffix,← length,← whole,List.drop_left,apart,Nat.add_zero]
  have leaf : Lexeme.leaf? (quoteChars cs ++ rest) =
      some (.literal (.ofList (quoteChars cs)),(quoteChars cs).length) := by
    rw [Lexeme.leaf?,read]
    simp
  rw [whole] at leaf ⊢
  have visible : Lexeme.isSeparator '"' = false := by decide
  have noComment : Lexeme.beginsComment ('"' :: (cs.flatMap escapeChar ++ '"' :: rest)) = false := rfl
  have noOpening : Delimiter.all.find? (·.opening = '"') = none := by decide
  have noClosing : Delimiter.all.find? (·.closing = '"') = none := by decide
  rw [Lexeme.front?,leaf,visible,noComment,noOpening,noClosing]
  rfl

theorem ofChars_quoteChars (cs : List Char) :
    TokenTree.ofChars (quoteChars cs) = .ok [.literal (.ofList (quoteChars cs)) .start] := by
  have front := front?_quoteChars cs [] rfl
  rw [List.append_nil] at front
  have scanned : Scanned.ofChars (quoteChars cs) = ⟨[(.start,.literal (.ofList (quoteChars cs)))],none⟩ := by
    have other : Scanned.ofChars (quoteChars cs) = Scanned.from .start [] (quoteChars cs).length (quoteChars cs) := rfl
    have length : (quoteChars cs).length = ((cs.flatMap escapeChar).length + 1) + 1 := by simp [quoteChars]
    rw [other,length,Scanned.from,front]
    · dsimp only
      rw [List.drop_length]
      rfl
    · simp [quoteChars]
  rw [TokenTree.ofChars,scanned]
  rfl

theorem toList_quote (text : String) : (quote text).toList = '"' :: text.toList.flatMap escapeChar ++ ['"'] :=
  String.toList_ofList

theorem text?_quote (text : String) : Quoted.text? (quote text) = some text := by
  rw [Quoted.text?,toList_quote]
  simp only [List.cons_append,read?_escaped,Option.map_some,String.ofList_toList]

/-- A quoted text reads back. It is one token, and none of its characters is a control character. Between its quotes
each quote is escaped while the closing one is not, and what stands there spells the text and no other. So no two texts
are quoted alike. -/
theorem quote_spells (text : String) :
    TokenTree.ofChars (quote text).toList = .ok [.literal (quote text) .start] ∧
    (∀ c ∈ (quote text).toList, Text.isControl c = false) ∧
    (∃ body, (quote text).toList = '"' :: body ++ ['"'] ∧ QuotesEscaped body ∧
      ∀ t, Spells body t ↔ t = text.toList) ∧
    Quoted.text? (quote text) = some text ∧
    ∀ other, quote other = quote text ↔ other = text := by
  have spelt := spells_escaped text.toList
  have back := text?_quote text
  refine ⟨?_,fun c member => ?_,⟨_,toList_quote text,spelt.quotesEscaped,fun t => ?_⟩,back,fun other => ?_⟩
  · rw [toList_quote]
    exact ofChars_quoteChars text.toList
  · exact isControl_of_mem_quoteChars (String.toList_ofList ▸ member)
  · constructor
    · exact fun spelt' => spelt'.unique spelt rfl
    · rintro rfl
      exact spelt
  · constructor
    · intro same
      have other := text?_quote other
      rw [same,back] at other
      exact (Option.some.inj other).symm
    · rintro rfl
      rfl

/-- A text in which characters follow an escape that could be taken for a part of it: a digit after the null character,
a digit and a brace after a control character. -/
def adjacent : String := "\x007\x7f7\x7d\""

theorem quote_spells_adjacent :
    quote adjacent = "\"\\07\\u\x7b7f\x7d7\x7d\\\"\"" ∧
    TokenTree.ofChars (quote adjacent).toList = .ok [.literal (quote adjacent) .start] ∧
    ('\x7d' ∈ (quote adjacent).toList ∧ Text.isControl '\x7d' = false) ∧
    Quoted.text? (quote adjacent) = some adjacent ∧
    ∀ other, quote other = quote adjacent → other = adjacent := by
  obtain ⟨token,controls,_,back,apart⟩ := quote_spells adjacent
  have member : '\x7d' ∈ (quote adjacent).toList := by decide +kernel
  exact ⟨by decide +kernel,token,⟨member,controls _ member⟩,back,fun other => (apart other).mp⟩

end InlineIcons.Literal
