import InlineIcons.Proofs.Source.Reader

/-! Attributes are read one by one, each from the two tokens that it is. -/
namespace InlineIcons.Source

open Reader

namespace Attribute

variable {s s' : Stream} {a : Attribute} {finish place opening closing : Position} {unread : Option SyntaxFault}
  {joint : Bool} {body ts : List TokenTree}

theorem run_read (joint : Bool) (place opening closing : Position) (body ts : List TokenTree) (finish : Position)
    (unread : Option SyntaxFault) :
    read.run ⟨.mark '#' joint place :: .group .bracket opening closing body :: ts,finish,unread⟩ =
      ((content place).run ⟨body,closing,unread⟩).map fun p => (p.1,⟨ts,finish,leftIn .bracket p.2⟩) :=
  run_inGroup .bracket (content place) opening closing body ts finish unread

theorem read_takes (done : read.run s = .ok (a,s')) : s'.tokens.length < s.tokens.length := by
  obtain ⟨place,s₁,first,done⟩ := bind_ok done
  cases first
  obtain ⟨_,s₂,marked,done⟩ := bind_ok done
  obtain ⟨rest,comes,rfl⟩ := mark_ok marked
  obtain ⟨_,_,_,rest',_,grouped,_,rfl⟩ := inGroup_ok done
  have shorter : rest.length < s.tokens.length := by
    cases split : s.tokens with
    | nil => simp [split,TokenTree.afterMarks?] at comes
    | cons t ts =>
      cases t with
      | mark c joint place =>
        rw [split] at comes
        simp [TokenTree.afterMarks?] at comes
        simp [← comes.2]
      | word text place => simp [split,TokenTree.afterMarks?] at comes
      | literal text place => simp [split,TokenTree.afterMarks?] at comes
      | group d place closing body => simp [split,TokenTree.afterMarks?] at comes
  simp only at grouped
  rw [grouped] at shorter
  simp at shorter ⊢
  omega

theorem outer_cons : outer.run ⟨.mark '#' joint place :: .group .bracket opening closing body :: ts,finish,unread⟩ =
    ((content place).run ⟨body,closing,unread⟩).bind fun p =>
      (outer.run ⟨ts,finish,leftIn .bracket p.2⟩).map fun q => (p.1 :: q.1,q.2) := by
  have opened : ∀ s : Stream, outer.run s = (whileWithin (peekMark "#") read (s.tokens.length + 1)).run s := fun _ => rfl
  rw [opened,whileWithin,run_bind]
  have comes : (peekMark "#").run ⟨.mark '#' joint place :: .group .bracket opening closing body :: ts,finish,unread⟩ =
      .ok (true,⟨.mark '#' joint place :: .group .bracket opening closing body :: ts,finish,unread⟩) := rfl
  rw [comes]
  simp only [Except.bind,if_true]
  rw [run_bind,run_read]
  cases (content place).run ⟨body,closing,unread⟩ with
  | error fault => rfl
  | ok p =>
    simp only [Except.map,Except.bind,opened]
    rw [run_bind,whileWithin_eq (m := ts.length + 1) (fun s b s' looked => by cases looked; rfl)
      (fun _ _ _ => read_takes) _ (by simp only [List.length_cons]; omega) (Nat.lt_succ_self _)]
    cases (whileWithin (peekMark "#") read (ts.length + 1)).run ⟨ts,finish,leftIn .bracket p.2⟩ <;> rfl

def isPart (word : String) : Bool := !isKeyword word || ["super","self","Self","crate"].any (word == ·)

theorem beginsPart_word (word : String) (place : Position) (ts : List TokenTree) :
    beginsPart (.word word place :: ts) = isPart word := by
  rfl

/-- The tokens of a path. -/
inductive PathWritten : List String → List TokenTree → Prop
  | last {part : String} (fits : isPart part = true) (place : Position) : PathWritten [part] [.word part place]
  | more {part : String} {parts : List String} {ts : List TokenTree} (fits : isPart part = true)
    (place place' place'' : Position) (joint : Bool) (rest : PathWritten parts ts) :
    PathWritten (part :: parts) (.word part place :: .mark ':' true place' :: .mark ':' joint place'' :: ts)

theorem PathWritten.begins {parts : List String} (written : PathWritten parts ts) (after : List TokenTree) :
    ∃ part place rest, isPart part = true ∧ ts ++ after = .word part place :: rest := by
  cases written with
  | last fits place => exact ⟨_,_,_,fits,rfl⟩
  | more fits place place' place'' joint rest => exact ⟨_,_,_,fits,rfl⟩

theorem run_partsWithin {part : String} (fits : isPart part = true) (bound : Nat) :
    (partsWithin (bound + 1)).run ⟨.word part place :: ts,finish,unread⟩ = (do
      if ← mark? "::" then return part :: (← partsWithin bound) else return [part] : Reader (List String)).run
        ⟨ts,finish,unread⟩ := by
  rw [partsWithin,run_bind,run_peek]
  show StateT.run (if (!isPart part) = true then _ else _) _ = _
  rw [if_neg (by simp [fits])]
  rfl

theorem PathWritten.partsWithin {parts : List String} {after : List TokenTree} (written : PathWritten parts ts)
    (ends : TokenTree.afterMarks? "::".toList after = none) {bound : Nat} (above : ts.length < bound) :
    (partsWithin bound).run ⟨ts ++ after,finish,unread⟩ = .ok (parts,⟨after,finish,unread⟩) := by
  induction written generalizing bound with
  | last fits place =>
    obtain ⟨bound,rfl⟩ := Nat.exists_eq_add_of_lt (Nat.zero_lt_of_lt above)
    rw [Nat.zero_add,List.singleton_append,run_partsWithin fits,run_bind,run_mark?]
    simp only [ends,Except.bind]
    rfl
  | @more part parts ts fits place place' place'' joint rest ih =>
    obtain ⟨bound,rfl⟩ := Nat.exists_eq_add_of_lt (Nat.zero_lt_of_lt above)
    rw [Nat.zero_add,List.cons_append,run_partsWithin fits,run_bind,run_mark?]
    have comes : TokenTree.afterMarks? "::".toList (.mark ':' true place' :: .mark ':' joint place'' :: (ts ++ after)) =
        some (ts ++ after) := rfl
    simp only [List.cons_append,comes,Except.bind,if_true]
    rw [run_bind,ih (by simp at above; omega)]
    rfl

theorem isPart_ne {part : String} (fits : isPart part = true) : part ≠ "unsafe" := by
  rintro rfl
  exact absurd fits (by decide)

theorem PathWritten.simplePath {parts : List String} {after ts' : List TokenTree} {rooted : Bool}
    (written : PathWritten parts ts) (ends : TokenTree.afterMarks? "::".toList after = none)
    (opened : (mark? "::").run ⟨ts',finish,unread⟩ = .ok (rooted,⟨ts ++ after,finish,unread⟩)) :
    simplePath.run ⟨ts',finish,unread⟩ = .ok ((rooted,parts),⟨after,finish,unread⟩) := by
  obtain ⟨part,place,rest,fits,split⟩ := written.begins after
  rw [Attribute.simplePath,run_bind_of_ok opened,run_bind,run_peek]
  show StateT.run (if (!beginsPart (ts ++ after)) = true then _ else _) _ = _
  rw [split,beginsPart_word,if_neg (by simp [fits]),← split,run_bind,run_tokens]
  simp only [Except.bind]
  rw [run_bind,written.partsWithin ends (by simp only [List.length_append]; omega)]
  rfl

theorem content_of_path {parts : List String} {rooted : Bool} {d : Delimiter} {opened closed : Position}
    {arguments : List TokenTree} (safe : beginsWord "unsafe" ts = false)
    (path : simplePath.run ⟨ts,finish,unread⟩ =
      .ok ((rooted,parts),⟨[.group d opened closed arguments],finish,unread⟩)) (place : Position) :
    (content place).run ⟨ts,finish,unread⟩ =
      .ok (⟨place,rooted,parts,.list arguments closed⟩,⟨[],finish,unread⟩) := by
  have first : (word? "unsafe").run ⟨ts,finish,unread⟩ = .ok (false,⟨ts,finish,unread⟩) := by
    rw [run_word?,if_neg (by simp [safe])]
  rw [content,run_bind_of_ok first]
  show StateT.run (Attribute.simplePath >>= _) _ = _
  rw [run_bind_of_ok path]
  rfl

/-- An attribute with arguments, in brackets of any kind; its path may lead to its name. -/
inductive Written (name : String) (arguments : List TokenTree) : Position → List TokenTree → Prop
  | plain {parts : List String} {ts : List TokenTree} (path : PathWritten parts ts) (last : parts.getLast? = some name)
    (joint : Bool) (place opening closing opened closed : Position) (d : Delimiter) :
    Written name arguments place [.mark '#' joint place,.group .bracket opening closing
      (ts ++ [.group d opened closed arguments])]
  | rooted {parts : List String} {ts : List TokenTree} (path : PathWritten parts ts) (last : parts.getLast? = some name)
    (joint joint' : Bool) (place first second opening closing opened closed : Position) (d : Delimiter) :
    Written name arguments place [.mark '#' joint place,.group .bracket opening closing
      (.mark ':' true first :: .mark ':' joint' second :: (ts ++ [.group d opened closed arguments]))]

theorem Written.outer {name : String} {arguments : List TokenTree} (written : Written name arguments place ts)
    (rest : List TokenTree) : ∃ a closed, a.place = place ∧ a.lastName? = some name ∧ a.args = .list arguments closed ∧
      outer.run ⟨ts ++ rest,finish,unread⟩ = (outer.run ⟨rest,finish,unread⟩).map fun p => (a :: p.1,p.2) := by
  have ends : ∀ d opened closed, TokenTree.afterMarks? "::".toList [.group d opened closed arguments] = none :=
    fun _ _ _ => rfl
  cases written with
  | @plain parts ts path last joint _ opening closing opened closed d =>
    obtain ⟨part,first,rest',fits,split⟩ := path.begins [.group d opened closed arguments]
    have safe : beginsWord "unsafe" (ts ++ [.group d opened closed arguments]) = false := by
      rw [split]
      simpa [beginsWord] using isPart_ne fits
    have bare : (mark? "::").run ⟨ts ++ [.group d opened closed arguments],closing,unread⟩ =
        .ok (false,⟨ts ++ [.group d opened closed arguments],closing,unread⟩) := by
      rw [run_mark?,split]
      rfl
    refine ⟨⟨place,false,parts,.list arguments closed⟩,closed,rfl,last,rfl,?_⟩
    rw [List.cons_append,List.singleton_append,outer_cons,
      content_of_path safe (path.simplePath (ends d opened closed) bare)]
    simp [Except.bind,leftIn]
  | @rooted parts ts path last joint joint' _ first second opening closing opened closed d =>
    have marked : (mark? "::").run ⟨.mark ':' true first :: .mark ':' joint' second ::
        (ts ++ [.group d opened closed arguments]),closing,unread⟩ =
        .ok (true,⟨ts ++ [.group d opened closed arguments],closing,unread⟩) := rfl
    refine ⟨⟨place,true,parts,.list arguments closed⟩,closed,rfl,last,rfl,?_⟩
    rw [List.cons_append,List.singleton_append,outer_cons,
      content_of_path rfl (path.simplePath (ends d opened closed) marked)]
    simp [Except.bind,leftIn]

end Attribute

end InlineIcons.Source
