import InlineIcons.Proofs.Source.Attribute
import InlineIcons.Source.TypeExpr.Reader

/-! How types are read. A type that stands before a comma, a closing mark or the end is read as far as it goes, and what
it holds is read one level below. -/
namespace InlineIcons.Source

open Reader
open Attribute (isPart)

theorem TokenTree.weightAll_append (ts us : List TokenTree) : weightAll (ts ++ us) = weightAll ts + weightAll us := by
  induction ts with
  | nil => simp [weightAll]
  | cons t ts ih => rw [List.cons_append,weightAll,weightAll,ih,Nat.add_assoc]

namespace Reader

variable {α : Type}

theorem run_tokens_bind (f : List TokenTree → Reader α) (s : Stream) : (tokens >>= f).run s = (f s.tokens).run s := rfl

theorem run_peek_bind (test : List TokenTree → Bool) (f : Bool → Reader α) (s : Stream) :
    (peek test >>= f).run s = (f (test s.tokens)).run s := rfl

theorem run_group {r : Reader α} {x : α} {d : Delimiter} {place closing finish : Position}
    {unread : Option SyntaxFault} {body ts : List TokenTree}
    (read : r.run ⟨body,closing,unread⟩ = .ok (x,⟨[],closing,unread⟩)) :
    (inGroup d r).run ⟨.group d place closing body :: ts,finish,unread⟩ = .ok (x,⟨ts,finish,unread⟩) := by
  rw [run_inGroup,read]
  simp [Except.map,leftIn]

end Reader

namespace TypeGrammar

/-- What follows a type that nothing more belongs to. -/
inductive EndsType : List TokenTree → Prop
  | whole : EndsType []
  | comma (joint : Bool) (place : Position) (ts : List TokenTree) : EndsType (.mark ',' joint place :: ts)
  | closing (joint : Bool) (place : Position) (ts : List TokenTree) : EndsType (.mark '>' joint place :: ts)

/-- How a type begins that is a path, a reference, a tuple or a slice. -/
inductive BeginsType : List TokenTree → Prop
  | word {word : String} (fits : isPart word = true) (place : Position) (ts : List TokenTree) :
    BeginsType (.word word place :: ts)
  | colons (place : Position) (joint : Bool) (place' : Position) (ts : List TokenTree) :
    BeginsType (.mark ':' true place :: .mark ':' joint place' :: ts)
  | ampersand (joint : Bool) (place : Position) (ts : List TokenTree) : BeginsType (.mark '&' joint place :: ts)
  | group {d : Delimiter} (flat : d ≠ .brace) (place closing : Position) (body ts : List TokenTree) :
    BeginsType (.group d place closing body :: ts)

variable {ts us after body : List TokenTree} {finish place place' closing : Position} {unread : Option SyntaxFault}
  {joint joint' plus : Bool} {word : String} {g : TypeGrammar} {depth : Nat}

theorem isPart_ne_keyword (fits : isPart word = true) (other : String) (keyword : isPart other = false) :
    word ≠ other := by
  rintro rfl
  rw [fits] at keyword
  cases keyword

theorem beginsWord_part (fits : isPart word = true) (other : String) (keyword : isPart other = false) :
    beginsWord other (.word word place :: ts) = false :=
  beq_eq_false_iff_ne.mpr (isPart_ne_keyword fits other keyword)

namespace BeginsType

theorem append (begins : BeginsType ts) (us : List TokenTree) : BeginsType (ts ++ us) := by
  cases begins with
  | word fits place ts => exact .word fits place _
  | colons place joint place' ts => exact .colons place joint place' _
  | ampersand joint place ts => exact .ampersand joint place _
  | group flat place closing body ts => exact .group flat place closing body _

theorem beginsWord_eq_false (begins : BeginsType ts) (other : String) (keyword : isPart other = false) :
    beginsWord other ts = false := by
  cases begins with
  | word fits place ts => exact beginsWord_part fits other keyword
  | colons place joint place' ts => rfl
  | ampersand joint place ts => rfl
  | group flat place closing body ts => rfl

theorem beginsLifetime_eq_false (begins : BeginsType ts) : beginsLifetime ts = false := by
  cases begins <;> rfl

theorem beginsLiteral_eq_false (begins : BeginsType ts) : beginsLiteral ts = false := by
  cases begins with
  | word fits place ts =>
    have apart := isPart_ne_keyword fits "true" (by decide)
    have apart' := isPart_ne_keyword fits "false" (by decide)
    simp [beginsLiteral,apart,apart']
  | colons place joint place' ts => rfl
  | ampersand joint place ts => rfl
  | group flat place closing body ts => rfl

theorem beginsGroup_eq_false (begins : BeginsType ts) : beginsGroup .brace ts = false := by
  cases begins with
  | group flat place closing body ts => exact decide_eq_false flat.symm
  | word fits place ts => rfl
  | colons place joint place' ts => rfl
  | ampersand joint place ts => rfl

theorem run_atEnd (begins : BeginsType ts) : atEnd.run ⟨ts,finish,unread⟩ = .ok (false,⟨ts,finish,unread⟩) := by
  cases begins <;> rfl

theorem run_closesArguments (begins : BeginsType ts) :
    closesArguments.run ⟨ts,finish,unread⟩ = .ok (false,⟨ts,finish,unread⟩) := by
  cases begins <;> rfl

end BeginsType

theorem run_binder? (begins : BeginsType ts) (finish : Position) (unread : Option SyntaxFault) :
    (binder? g).run ⟨ts,finish,unread⟩ = .ok (false,⟨ts,finish,unread⟩) := by
  rw [binder?,run_bind,run_word?,if_neg (by simp [begins.beginsWord_eq_false "for" (by decide)])]
  rfl

/-! Which reader the first token of a type calls for. -/

theorem run_readType_parenthesis : (readType g plus).run ⟨.group .parenthesis place closing body :: ts,finish,unread⟩ =
    (parenthesizedType g plus (.group .parenthesis place closing body :: ts)).run
      ⟨.group .parenthesis place closing body :: ts,finish,unread⟩ := rfl

theorem run_readType_bracket : (readType g plus).run ⟨.group .bracket place closing body :: ts,finish,unread⟩ =
    (bracketType g (.group .bracket place closing body :: ts)).run
      ⟨.group .bracket place closing body :: ts,finish,unread⟩ := rfl

theorem run_readType_colons :
    (readType g plus).run ⟨.mark ':' true place :: .mark ':' joint place' :: ts,finish,unread⟩ =
    (pathType g plus false (.mark ':' true place :: .mark ':' joint place' :: ts)).run
      ⟨.mark ':' true place :: .mark ':' joint place' :: ts,finish,unread⟩ := rfl

theorem run_readType_ampersand (unnamed : beginsLifetime ts = false) :
    (readType g plus).run ⟨.mark '&' joint place :: ts,finish,unread⟩ = (do
      let mutable ← word? "mut"
      return .reference none mutable (← g.type false) : Reader TypeExpr).run ⟨ts,finish,unread⟩ := by
  show StateT.run (if beginsLifetime ts = true then _ else _) _ = _
  rw [if_neg (by simp [unnamed])]
  rfl

theorem run_readType_word (fits : isPart word = true) : (readType g plus).run ⟨.word word place :: ts,finish,unread⟩ =
    (pathType g plus false (.word word place :: ts)).run ⟨.word word place :: ts,finish,unread⟩ := by
  have begins : BeginsType (.word word place :: ts) := .word fits place ts
  have noFunction : beginsFunction (.word word place :: ts) = false := by
    simp [beginsFunction,beginsWord_part fits "fn" (by decide),
      beginsWord_part fits "unsafe" (by decide),beginsWord_part fits "extern" (by decide)]
  have isPath : beginsPath (.word word place :: ts) = true := fits
  have noGroup : beginsGroup .parenthesis (.word word place :: ts) = false := rfl
  rw [readType,run_tokens_bind,run_bind_of_ok (run_binder? begins finish unread),run_tokens_bind]
  simp only [Bool.false_and,Bool.false_eq_true,if_false,noGroup,noFunction,isPath,Bool.true_or,if_true]

/-- The tokens of a type, whatever follows them that ends it. -/
structure Reads (type : TypeExpr) (ts : List TokenTree) : Prop where
  begins : BeginsType ts
  read : ∀ depth plus after finish unread, TokenTree.weightAll ts ≤ depth → EndsType after →
    ((within depth).type plus).run ⟨ts ++ after,finish,unread⟩ = .ok (type,⟨after,finish,unread⟩)

namespace Reads

variable {type : TypeExpr}

theorem of_readType (begins : BeginsType ts)
    (read : ∀ n plus after finish unread, TokenTree.weightAll ts ≤ n + 1 → EndsType after →
      (readType (within n) plus).run ⟨ts ++ after,finish,unread⟩ = .ok (type,⟨after,finish,unread⟩)) :
    Reads type ts := by
  refine ⟨begins,fun depth plus after finish unread enough ends => ?_⟩
  have some : 1 ≤ TokenTree.weightAll ts := by
    cases begins
    all_goals
      simp only [TokenTree.weightAll,TokenTree.weight]
      omega
  obtain ⟨n,rfl⟩ := Nat.exists_eq_add_of_le' (Nat.le_trans some enough)
  exact read n plus after finish unread enough ends

theorem slice (reads : Reads type body) (place closing : Position) :
    Reads (.slice type) [.group .bracket place closing body] := by
  apply of_readType (.group (by decide) place closing body [])
  intro n plus after finish unread room _
  simp only [TokenTree.weightAll,TokenTree.weight] at room
  have item := reads.read n true [] closing unread (by omega) .whole
  rw [List.append_nil] at item
  rw [List.singleton_append,run_readType_bracket,bracketType,run_bind_of_ok (x := some type)]
  · rfl
  · apply run_group
    rw [run_bind_of_ok item]
    rfl

theorem run_parenthesized (begins : BeginsType ts) : (parenthesized g).run ⟨ts,finish,unread⟩ = (do
    let first ← g.type true
    if ← mark? "," then return .whole (.tuple (first :: (← commaList (g.type true))))
    return .single first : Reader Parenthesized).run ⟨ts,finish,unread⟩ := by
  cases begins <;> rfl

theorem paren (reads : Reads type body) (place closing : Position) :
    Reads (.paren type) [.group .parenthesis place closing body] := by
  apply of_readType (.group (by decide) place closing body [])
  intro n plus after finish unread room ends
  simp only [TokenTree.weightAll,TokenTree.weight] at room
  have item := reads.read n true [] closing unread (by omega) .whole
  rw [List.append_nil] at item
  have inside : (parenthesized (within n)).run ⟨body,closing,unread⟩ = .ok (.single type,⟨[],closing,unread⟩) := by
    rw [run_parenthesized reads.begins,run_bind_of_ok item]
    rfl
  rw [List.singleton_append,run_readType_parenthesis,parenthesizedType,run_bind_of_ok (run_group inside)]
  cases type with
  | path rooted segments => cases ends <;> cases plus <;> rfl
  | reference lifetime mutable target => rfl
  | tuple items => rfl
  | slice item => rfl
  | paren inner => rfl
  | other text => rfl

theorem reference (reads : Reads type ts) (joint : Bool) (place : Position) :
    Reads (.reference none false type) (.mark '&' joint place :: ts) := by
  apply of_readType (.ampersand joint place ts)
  intro n plus after finish unread room ends
  simp only [TokenTree.weightAll,TokenTree.weight] at room
  have begins := reads.begins.append after
  have fixed : beginsWord "mut" (ts ++ after) = false := begins.beginsWord_eq_false "mut" (by decide)
  rw [List.cons_append,run_readType_ampersand begins.beginsLifetime_eq_false,run_bind_of_ok (x := false),
    run_bind_of_ok (reads.read n false after finish unread (by omega) ends)]
  · rfl
  · rw [run_word?,if_neg (by simp [fixed])]

theorem mutableReference (reads : Reads type ts) (joint : Bool) (place place' : Position) :
    Reads (.reference none true type) (.mark '&' joint place :: .word "mut" place' :: ts) := by
  apply of_readType (.ampersand joint place _)
  intro n plus after finish unread room ends
  simp only [TokenTree.weightAll,TokenTree.weight] at room
  have fixed : (word? "mut").run ⟨.word "mut" place' :: (ts ++ after),finish,unread⟩ =
      .ok (true,⟨ts ++ after,finish,unread⟩) := rfl
  rw [List.cons_append,List.cons_append,run_readType_ampersand rfl,run_bind_of_ok fixed,
    run_bind_of_ok (reads.read n false after finish unread (by omega) ends)]
  rfl

end Reads

/-- Types with commas between them. -/
inductive ReadsAll : List TypeExpr → List TokenTree → Prop
  | none : ReadsAll [] []
  | last {type : TypeExpr} {ts : List TokenTree} (reads : Reads type ts) : ReadsAll [type] ts
  | more {type : TypeExpr} {types : List TypeExpr} {ts us : List TokenTree} (reads : Reads type ts) (joint : Bool)
    (place : Position) (filled : types ≠ []) (rest : ReadsAll types us) :
    ReadsAll (type :: types) (ts ++ .mark ',' joint place :: us)

namespace ReadsAll

variable {types : List TypeExpr}

theorem length_le (all : ReadsAll types us) : types.length ≤ us.length := by
  induction all with
  | none => exact Nat.le_refl _
  | @last type ts reads =>
    have begins := reads.begins
    cases begins <;> simp
  | more reads joint place filled rest ih =>
    simp only [List.length_cons,List.length_append]
    omega

theorem begins (all : ReadsAll types us) : us = [] ∨ BeginsType us := by
  cases all with
  | none => exact .inl rfl
  | last reads => exact .inr reads.begins
  | more reads joint place filled rest => exact .inr (reads.begins.append _)

section List

variable {α : Type} {form : TypeExpr → α} {item : Reader α} {stop : Reader Bool}
  (reading : ∀ type ts, Reads type ts → TokenTree.weightAll ts ≤ depth → ∀ after finish unread, EndsType after →
    item.run ⟨ts ++ after,finish,unread⟩ = .ok (form type,⟨after,finish,unread⟩))
  (goes : ∀ ts finish unread, BeginsType ts → stop.run ⟨ts,finish,unread⟩ = .ok (false,⟨ts,finish,unread⟩))
  (goes' : ∀ joint place ts finish unread, stop.run ⟨.mark ',' joint place :: ts,finish,unread⟩ =
    .ok (false,⟨.mark ',' joint place :: ts,finish,unread⟩))
  (stops : stop.run ⟨after,finish,unread⟩ = .ok (true,⟨after,finish,unread⟩)) (ends : EndsType after)

include reading goes goes' stops ends

theorem run_separatedWithin (all : ReadsAll types us) (enough : TokenTree.weightAll us ≤ depth) {bound : Nat}
    (above : types.length ≤ bound) : (separatedWithin "," stop item (bound + 1)).run ⟨us ++ after,finish,unread⟩ =
      .ok (types.map form,⟨after,finish,unread⟩) := by
  induction all generalizing bound with
  | none =>
    rw [List.nil_append,separatedWithin,run_bind_of_ok stops]
    rfl
  | @last type ts reads =>
    rw [separatedWithin,run_bind_of_ok (goes (ts ++ after) finish unread (reads.begins.append after)),
      if_neg Bool.false_ne_true,run_bind_of_ok (reading type ts reads enough after finish unread ends),
      run_bind_of_ok stops]
    rfl
  | @more type types ts us reads joint place filled rest ih =>
    obtain ⟨bound,rfl⟩ := Nat.exists_eq_add_of_lt above
    rw [TokenTree.weightAll_append,TokenTree.weightAll] at enough
    have comma : (mark ",").run ⟨.mark ',' joint place :: (us ++ after),finish,unread⟩ =
        .ok ((),⟨us ++ after,finish,unread⟩) := rfl
    have later := ih (by omega) (Nat.le_add_right types.length bound)
    have first := reading type ts reads (by omega) (.mark ',' joint place :: (us ++ after)) finish unread
      (.comma joint place _)
    rw [List.append_assoc,List.cons_append,separatedWithin,
      run_bind_of_ok (goes _ finish unread (reads.begins.append _)),if_neg Bool.false_ne_true,run_bind_of_ok first,
      run_bind_of_ok (goes' joint place _ finish unread),if_neg Bool.false_ne_true,run_bind_of_ok comma,
      run_bind_of_ok later]
    rfl

/-- A list of types is read up to what ends it. -/
theorem run_separated (all : ReadsAll types us) (enough : TokenTree.weightAll us ≤ depth) :
    (separated "," stop item).run ⟨us ++ after,finish,unread⟩ = .ok (types.map form,⟨after,finish,unread⟩) := by
  have above : types.length ≤ (us ++ after).length := Nat.le_trans all.length_le (by simp)
  rw [separated,run_tokens_bind]
  exact run_separatedWithin reading goes goes' stops ends all enough above

end List

end ReadsAll

namespace Reads

theorem tuple {types : List TypeExpr} (all : ReadsAll types body) (several : types.length ≠ 1)
    (place closing : Position) : Reads (.tuple types) [.group .parenthesis place closing body] := by
  apply of_readType (.group (by decide) place closing body [])
  intro n plus after finish unread room ends
  simp only [TokenTree.weightAll,TokenTree.weight] at room
  have inside : (parenthesized (within n)).run ⟨body,closing,unread⟩ =
      .ok (.whole (.tuple types),⟨[],closing,unread⟩) := by
    cases all with
    | none => rfl
    | last reads => exact absurd rfl several
    | @more type types ts us reads joint comma filled rest =>
      rw [TokenTree.weightAll_append,TokenTree.weightAll] at room
      have item := reads.read n true (.mark ',' joint comma :: us) closing unread (by omega) (.comma joint comma us)
      have further : (commaList ((within n).type true)).run ⟨us ++ [],closing,unread⟩ =
          .ok (types.map id,⟨[],closing,unread⟩) :=
        rest.run_separated (fun _ _ reads enough after finish unread => reads.read n true after finish unread enough)
          (fun _ _ _ begins => begins.run_atEnd) (fun _ _ _ _ _ => run_atEnd _) (run_atEnd _) .whole (by omega)
      rw [List.append_nil,List.map_id] at further
      have taken : (mark? ",").run ⟨.mark ',' joint comma :: us,closing,unread⟩ = .ok (true,⟨us,closing,unread⟩) := rfl
      rw [run_parenthesized (reads.begins.append _),run_bind_of_ok item,run_bind_of_ok taken,if_pos rfl,
        run_bind_of_ok further]
      rfl
  rw [List.singleton_append,run_readType_parenthesis,parenthesizedType,run_bind_of_ok (run_group inside)]
  rfl

end Reads

/-- What follows a part of a path that has no arguments there. -/
inductive EndsSegment : List TokenTree → Prop
  | type {ts : List TokenTree} (ends : EndsType ts) : EndsSegment ts
  | colons (place : Position) (joint : Bool) (place' : Position) (word : String) (place'' : Position)
    (ts : List TokenTree) : EndsSegment (.mark ':' true place :: .mark ':' joint place' :: .word word place'' :: ts)

/-- The tokens of a part of a path. -/
structure ReadsSegment (segment : Segment) (ts : List TokenTree) : Prop where
  begins : ∃ place us, ts = .word segment.name place :: us
  read : ∀ depth after finish unread, TokenTree.weightAll ts ≤ depth + 1 → EndsSegment after →
    (TypeGrammar.segment (within depth)).run ⟨ts ++ after,finish,unread⟩ = .ok (segment,⟨after,finish,unread⟩)

/-- A word that can name what a path leads to. -/
def isName (word : String) : Bool := !isKeyword word || word == "Self"

theorem isPart_of_isName (name : isName word = true) : isPart word = true := by
  rcases (Bool.or_eq_true _ _).mp name with free | own
  · rw [isPart,free,Bool.true_or]
  · rw [beq_iff_eq.mp own]
    decide

namespace ReadsSegment

theorem run_segment_anchor (anchor : word ∈ anchors) :
    (TypeGrammar.segment g).run ⟨.word word place :: ts,finish,unread⟩ = .ok (.mk word none,⟨ts,finish,unread⟩) := by
  have begins : beginsAnchor (.word word place :: ts) = true := List.any_eq_true.mpr ⟨word,anchor,beq_self_eq_true word⟩
  rw [TypeGrammar.segment,run_peek_bind,begins,if_pos rfl]
  rfl

theorem run_segment_name (name : isName word = true) :
    (TypeGrammar.segment g).run ⟨.word word place :: ts,finish,unread⟩ = (do
      if ← peek beginsArguments then return .mk word (some (← arguments g)) else return .mk word none :
        Reader Segment).run ⟨ts,finish,unread⟩ := by
  have noAnchor : beginsAnchor (.word word place :: ts) = false := by
    refine List.any_eq_false.mpr fun anchor member same => ?_
    rw [beq_iff_eq.mp same] at name
    have table : ∀ anchor ∈ anchors, isName anchor = false := by decide
    rw [table anchor member] at name
    cases name
  rw [TypeGrammar.segment,run_peek_bind,noAnchor,if_neg Bool.false_ne_true,peekWord,run_peek_bind]
  by_cases own : word = "Self"
  · rw [own]
    rfl
  · have plain : isKeyword word = false := by simpa [isName,own] using name
    have other : beginsWord "Self" (.word word place :: ts) = false := beq_eq_false_iff_ne.mpr own
    have read : Reader.name.run ⟨.word word place :: ts,finish,unread⟩ = .ok (word,⟨ts,finish,unread⟩) := by
      show StateT.run (if isKeyword word = true then _ else _) _ = _
      rw [if_neg (by simp [plain])]
      rfl
    rw [other,if_neg Bool.false_ne_true,run_bind_of_ok read]

theorem beginsArguments_eq_false (ends : EndsSegment after) : beginsArguments after = false := by
  cases ends with
  | type ends => cases ends <;> rfl
  | colons place joint place' word place'' ts => rfl

theorem beginsArguments_less (begins : BeginsType ts) : beginsArguments (.mark '<' joint place :: ts) = true := by
  cases begins <;> cases joint <;> rfl

theorem anchor (anchor : word ∈ anchors) (place : Position) : ReadsSegment (.mk word none) [.word word place] :=
  ⟨⟨place,[],rfl⟩,fun _ _ _ _ _ _ => run_segment_anchor anchor⟩

theorem plain (name : isName word = true) (place : Position) : ReadsSegment (.mk word none) [.word word place] := by
  refine ⟨⟨place,[],rfl⟩,fun depth after finish unread _ ends => ?_⟩
  rw [List.singleton_append,run_segment_name name,run_peek_bind,beginsArguments_eq_false ends]
  rfl

theorem run_argument {type : TypeExpr} (reads : Reads type ts) (enough : TokenTree.weightAll ts ≤ depth)
    (ends : EndsType after) : (argument (within depth)).run ⟨ts ++ after,finish,unread⟩ =
      .ok (.type type,⟨after,finish,unread⟩) := by
  have begins := reads.begins.append after
  rw [argument,run_tokens_bind]
  simp only [begins.beginsLifetime_eq_false,begins.beginsLiteral_eq_false,begins.beginsGroup_eq_false,
    Bool.false_and,Bool.or_self,Bool.false_eq_true,if_false]
  rw [run_bind_of_ok (reads.read depth true after finish unread enough ends)]
  match type with
  | .path false [_] => cases ends <;> rfl
  | .path false [] | .path false (_ :: _ :: _) | .path true _ => rfl
  | .reference _ _ _ | .tuple _ | .slice _ | .paren _ | .other _ => rfl

theorem arguments {types : List TypeExpr} (name : isName word = true) (all : ReadsAll types us)
    (place : Position) (joint : Bool) (place' : Position) (joint' : Bool) (closing : Position) :
    ReadsSegment (.mk word (some (types.map .type)))
      (.word word place :: .mark '<' joint place' :: (us ++ [.mark '>' joint' closing])) := by
  refine ⟨⟨place,_,rfl⟩,fun depth after finish unread enough ends => ?_⟩
  simp only [TokenTree.weightAll,TokenTree.weight,TokenTree.weightAll_append] at enough
  have comes : beginsArguments (.mark '<' joint place' :: (us ++ .mark '>' joint' closing :: after)) = true := by
    rcases all.begins with rfl | begins
    · cases joint <;> rfl
    · exact beginsArguments_less (begins.append _)
  have opened : (mark "<").run ⟨.mark '<' joint place' :: (us ++ .mark '>' joint' closing :: after),finish,unread⟩ =
      .ok ((),⟨us ++ .mark '>' joint' closing :: after,finish,unread⟩) := rfl
  have list : (separated "," closesArguments (argument (within depth))).run
      ⟨us ++ .mark '>' joint' closing :: after,finish,unread⟩ =
        .ok (types.map .type,⟨.mark '>' joint' closing :: after,finish,unread⟩) :=
    all.run_separated (fun type ts reads enough after finish unread => run_argument reads enough)
      (fun ts finish unread begins => begins.run_closesArguments) (fun _ _ _ _ _ => run_peek _ _) (run_peek _ _)
      (.closing joint' closing after) (by omega)
  have closed : (mark ">").run ⟨.mark '>' joint' closing :: after,finish,unread⟩ = .ok ((),⟨after,finish,unread⟩) := rfl
  have read : (TypeGrammar.arguments (within depth)).run
      ⟨.mark '<' joint place' :: (us ++ .mark '>' joint' closing :: after),finish,unread⟩ =
        .ok (types.map .type,⟨after,finish,unread⟩) := by
    have bare : (discard (mark? "::") : Reader Unit).run
        ⟨.mark '<' joint place' :: (us ++ .mark '>' joint' closing :: after),finish,unread⟩ =
          .ok ((),⟨.mark '<' joint place' :: (us ++ .mark '>' joint' closing :: after),finish,unread⟩) := rfl
    rw [TypeGrammar.arguments,run_bind_of_ok bare,run_bind_of_ok opened,run_bind_of_ok list,run_bind_of_ok closed]
    rfl
  rw [List.cons_append,List.cons_append,List.append_assoc,List.singleton_append,run_segment_name name,run_peek_bind,
    comes,if_pos rfl,run_bind_of_ok read]
  rfl

end ReadsSegment

/-- The parts of a path with two colons between them. -/
inductive ReadsPath : List Segment → List TokenTree → Prop
  | last {segment : Segment} {ts : List TokenTree} (reads : ReadsSegment segment ts) : ReadsPath [segment] ts
  | more {segment : Segment} {segments : List Segment} {ts us : List TokenTree} (reads : ReadsSegment segment ts)
    (place : Position) (joint : Bool) (place' : Position) (rest : ReadsPath segments us) :
    ReadsPath (segment :: segments) (ts ++ .mark ':' true place :: .mark ':' joint place' :: us)

namespace ReadsPath

variable {segments : List Segment}

def goesOn : Reader Bool := peek fun ts => beginsMark "::" ts && !beginsGroup .parenthesis (ts.drop 2)

theorem begins (path : ReadsPath segments ts) :
    ∃ segment rest place us, segments = segment :: rest ∧ ts = .word segment.name place :: us := by
  cases path with
  | last reads =>
    obtain ⟨place,us,split⟩ := reads.begins
    exact ⟨_,[],place,us,rfl,split⟩
  | more reads place joint place' rest =>
    obtain ⟨first,us,split⟩ := reads.begins
    exact ⟨_,_,first,_,rfl,by rw [split,List.cons_append]⟩

theorem endsSegment (path : ReadsPath segments us) (place : Position) (joint : Bool) (place' : Position)
    (after : List TokenTree) : EndsSegment (.mark ':' true place :: .mark ':' joint place' :: (us ++ after)) := by
  obtain ⟨segment,_,first,rest,_,rfl⟩ := path.begins
  exact .colons place joint place' segment.name first (rest ++ after)

theorem run_goesOn (path : ReadsPath segments us) (place : Position) (joint : Bool) (place' : Position)
    (after : List TokenTree) (finish : Position) (unread : Option SyntaxFault) :
    goesOn.run ⟨.mark ':' true place :: .mark ':' joint place' :: (us ++ after),finish,unread⟩ =
      .ok (true,⟨.mark ':' true place :: .mark ':' joint place' :: (us ++ after),finish,unread⟩) := by
  obtain ⟨segment,_,first,rest,_,rfl⟩ := path.begins
  rfl

theorem run_goesOn_ends (ends : EndsType after) :
    goesOn.run ⟨after,finish,unread⟩ = .ok (false,⟨after,finish,unread⟩) := by
  cases ends <;> rfl

theorem run_next {segment : Segment} (reads : ReadsSegment segment ts) (depth : Nat)
    (enough : TokenTree.weightAll ts ≤ depth + 1) (ends : EndsSegment after) (place : Position) (joint : Bool)
    (place' : Position) (finish : Position) (unread : Option SyntaxFault) :
    (do mark "::"; TypeGrammar.segment (within depth) : Reader Segment).run
      ⟨.mark ':' true place :: .mark ':' joint place' :: (ts ++ after),finish,unread⟩ =
        .ok (segment,⟨after,finish,unread⟩) := by
  have colons : (mark "::").run ⟨.mark ':' true place :: .mark ':' joint place' :: (ts ++ after),finish,unread⟩ =
      .ok ((),⟨ts ++ after,finish,unread⟩) := rfl
  rw [run_bind_of_ok colons]
  exact reads.read depth after finish unread enough ends

/-- What a loop does that goes on with a path. -/
theorem run_whileWithin_succ {more : Reader Bool} {item : Reader Segment} {segment : Segment} {segments : List Segment}
    {s s₁ s₂ : Stream} {bound : Nat} (goes : more.run s = .ok (true,s)) (read : item.run s = .ok (segment,s₁))
    (rest : (whileWithin more item bound).run s₁ = .ok (segments,s₂)) :
    (whileWithin more item (bound + 1)).run s = .ok (segment :: segments,s₂) := by
  rw [whileWithin,run_bind_of_ok goes,if_pos rfl,run_bind_of_ok read,run_bind_of_ok rest]
  rfl

theorem run_whileWithin_ends {item : Reader Segment} {bound : Nat} (ends : EndsType after) :
    (whileWithin goesOn item bound).run ⟨after,finish,unread⟩ = .ok ([],⟨after,finish,unread⟩) := by
  cases bound with
  | zero => rfl
  | succ bound =>
    rw [whileWithin,run_bind_of_ok (run_goesOn_ends ends)]
    rfl

theorem run_whileWithin (path : ReadsPath segments us) (ends : EndsType after) (depth : Nat)
    (enough : TokenTree.weightAll us ≤ depth + 1) {bound : Nat} (above : segments.length ≤ bound) (place : Position)
    (joint : Bool) (place' : Position) (finish : Position) (unread : Option SyntaxFault) :
    (whileWithin goesOn (do mark "::"; TypeGrammar.segment (within depth)) bound).run
      ⟨.mark ':' true place :: .mark ':' joint place' :: (us ++ after),finish,unread⟩ =
        .ok (segments,⟨after,finish,unread⟩) := by
  induction path generalizing bound place joint place' with
  | @last segment ts reads =>
    rcases bound with _ | bound
    · cases above
    · have goes := run_goesOn (.last reads) place joint place' after finish unread
      have first := run_next reads depth enough (.type ends) place joint place' finish unread
      exact run_whileWithin_succ goes first (run_whileWithin_ends ends)
  | @more segment segments ts us reads place₁ joint₁ place₂ rest ih =>
    rcases bound with _ | bound
    · cases above
    · simp only [TokenTree.weightAll_append,TokenTree.weightAll,TokenTree.weight] at enough
      have goes := run_goesOn (.more reads place₁ joint₁ place₂ rest) place joint place' after finish unread
      have first := run_next reads depth (by omega) (rest.endsSegment place₁ joint₁ place₂ after) place joint place'
        finish unread
      have later := ih (by omega) (Nat.le_of_succ_le_succ above) place₁ joint₁ place₂
      rw [List.append_assoc,List.cons_append,List.cons_append] at goes ⊢
      exact run_whileWithin_succ goes first later

theorem length_le (path : ReadsPath segments us) : segments.length ≤ us.length := by
  induction path with
  | last reads =>
    obtain ⟨place,us,rfl⟩ := reads.begins
    simp
  | more reads place joint place' rest ih =>
    simp only [List.length_append,List.length_cons]
    obtain ⟨place,us,rfl⟩ := reads.begins
    simp only [List.length_cons]
    omega

theorem run_segments (path : ReadsPath segments us) (ends : EndsType after)
    (enough : TokenTree.weightAll us ≤ depth + 1) :
    (TypeGrammar.segments (within depth) goesOn).run ⟨us ++ after,finish,unread⟩ =
      .ok (segments,⟨after,finish,unread⟩) := by
  cases path with
  | @last segment ts reads =>
    rw [TypeGrammar.segments,run_bind_of_ok (reads.read depth after finish unread enough (.type ends)),whileHolds,
      bind_assoc,run_tokens_bind,run_bind_of_ok (run_whileWithin_ends ends)]
    rfl
  | @more segment segments ts us reads place joint place' rest =>
    simp only [TokenTree.weightAll_append,TokenTree.weightAll,TokenTree.weight] at enough
    have first := reads.read depth _ finish unread (by omega) (rest.endsSegment place joint place' after)
    have above : segments.length ≤
        (TokenTree.mark ':' true place :: .mark ':' joint place' :: (us ++ after)).length + 1 := by
      have short := rest.length_le
      simp only [List.length_cons,List.length_append]
      omega
    have later := rest.run_whileWithin ends depth (by omega) above place joint place' finish unread
    rw [List.append_assoc,List.cons_append,List.cons_append,TypeGrammar.segments,run_bind_of_ok first,whileHolds,
      bind_assoc,run_tokens_bind,run_bind_of_ok later]
    rfl

end ReadsPath

namespace Reads

variable {segments : List Segment}

theorem run_pathType {rooted : Bool}
    (opened : (mark? "::").run ⟨ts,finish,unread⟩ = .ok (rooted,⟨us ++ after,finish,unread⟩))
    (apart : beginsMark "<" ts = false) (path : ReadsPath segments us) (ends : EndsType after)
    (enough : TokenTree.weightAll us ≤ depth + 1) (start : List TokenTree) :
    (pathType (within depth) plus false start).run ⟨ts,finish,unread⟩ =
      .ok (.path rooted segments,⟨after,finish,unread⟩) := by
  have found : (TypeGrammar.path (within depth)).run ⟨ts,finish,unread⟩ =
      .ok ((rooted,segments),⟨after,finish,unread⟩) := by
    have whole : (TypeGrammar.segments (within depth) ReadsPath.goesOn).run ⟨us ++ after,finish,unread⟩ =
        .ok (segments,⟨after,finish,unread⟩) := path.run_segments ends enough
    rw [ReadsPath.goesOn] at whole
    rw [TypeGrammar.path,run_bind_of_ok opened,run_bind_of_ok whole]
    rfl
  have noMacro : (beginsMark "!" after && !beginsMark "!=" after) = false := by cases ends <;> rfl
  have noBound : beginsMark "+" after = false := by cases ends <;> rfl
  rw [pathType,peekMark,run_peek_bind,apart,if_neg Bool.false_ne_true,run_bind_of_ok found]
  dsimp only
  rw [run_peek_bind,noMacro,Bool.and_false,if_neg Bool.false_ne_true,peekMark,run_peek_bind,noBound,Bool.and_false,
    Bool.or_self,if_neg Bool.false_ne_true]
  rfl

theorem path {segment : Segment} (path : ReadsPath (segment :: segments) ts) (fits : isPart segment.name = true) :
    Reads (.path false (segment :: segments)) ts := by
  obtain ⟨_,_,place,us,same,rfl⟩ := path.begins
  obtain ⟨rfl,rfl⟩ := List.cons.inj same
  apply of_readType (.word fits place us)
  intro n plus after finish unread room ends
  rw [List.cons_append,run_readType_word fits]
  exact run_pathType rfl rfl path ends room _

theorem rootedPath (path : ReadsPath segments ts) (place : Position) (joint : Bool) (place' : Position) :
    Reads (.path true segments) (.mark ':' true place :: .mark ':' joint place' :: ts) := by
  apply of_readType (.colons place joint place' ts)
  intro n plus after finish unread room ends
  simp only [TokenTree.weightAll,TokenTree.weight] at room
  rw [List.cons_append,List.cons_append,run_readType_colons]
  exact run_pathType rfl rfl path ends (by omega) _

theorem runAll {type : TypeExpr} (reads : Reads type ts) (finish : Position) :
    TypeExpr.reader.runAll finish ts = .ok type := by
  have whole := reads.read (TokenTree.weightAll ts + 2) true [] finish none (Nat.le_add_right _ 2) .whole
  rw [List.append_nil] at whole
  have taken : tokens.run ⟨ts,finish,none⟩ = .ok (ts,⟨ts,finish,none⟩) := rfl
  have read : TypeExpr.reader.run ⟨ts,finish,none⟩ = .ok (type,⟨[],finish,none⟩) := by
    rw [TypeExpr.reader,run_bind_of_ok taken,ofTokens,whole]
  exact runAll_ok_iff.mpr ⟨⟨[],finish,none⟩,read,rfl,rfl⟩

end Reads

end TypeGrammar
end InlineIcons.Source
