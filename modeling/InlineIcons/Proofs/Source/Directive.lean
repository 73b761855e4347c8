import InlineIcons.Proofs.Source.Attribute
import InlineIcons.Source.Findings
import Mathlib.Data.List.Forall2

/-! The marker on a struct and the reader of source files agree on directives: they read the same arguments, and
differ in one thing only, that the marker wants the text of a literal to be a name. -/
namespace InlineIcons.Source

open Reader

namespace TokenTree

/-- What an argument names: itself if it is a name, or the text of a string literal, blanks and all. -/
def property? : TokenTree → Option String
  | .word text _ => if isKeyword text then none else some text
  | .literal text _ => Quoted.text? text
  | _ => none

def isMisnamed : TokenTree → Bool
  | .literal text _ => (Quoted.text? text).any fun value => !DirectiveArgs.isName value
  | _ => false

theorem isMisnamed_iff {t : TokenTree} : t.isMisnamed = true ↔ ∃ literal place value, t = .literal literal place ∧
    Quoted.text? literal = some value ∧ DirectiveArgs.isName value = false := by
  cases t with
  | literal text place =>
    cases said : Quoted.text? text with
    | none => simp [isMisnamed,said]
    | some value => simp [isMisnamed,said]
  | word text place => simp [isMisnamed]
  | mark c joint place => simp [isMisnamed]
  | group d place closing body => simp [isMisnamed]

end TokenTree

namespace DirectiveArgs

variable {s s' : Stream} {strict : Bool} {x : String} {xs : List String}

theorem property_word_ok_iff {text : String} {place finish : Position} {ts : List TokenTree}
    {unread : Option SyntaxFault} : (property strict).run ⟨.word text place :: ts,finish,unread⟩ = .ok (x,s') ↔
      isKeyword text = false ∧ text = x ∧ s' = ⟨ts,finish,unread⟩ := by
  have opened : (property strict).run ⟨.word text place :: ts,finish,unread⟩ =
      (if isKeyword text then fail (.keyword text) else do setTokens ts; return text : Reader String).run
        ⟨.word text place :: ts,finish,unread⟩ := rfl
  rw [opened]
  by_cases keyword : isKeyword text = true
  · rw [if_pos keyword]
    refine iff_of_false (by rintro ⟨⟩) fun ⟨free,_⟩ => ?_
    exact Bool.false_ne_true (free.symm.trans keyword)
  · have free : isKeyword text = false := by simpa using keyword
    rw [if_neg keyword,taking_ok_iff]
    exact (and_iff_right free).symm

theorem property_literal_ok_iff {text : String} {place finish : Position} {ts : List TokenTree}
    {unread : Option SyntaxFault} : (property strict).run ⟨.literal text place :: ts,finish,unread⟩ = .ok (x,s') ↔
      Quoted.text? text = some x ∧ (strict = true → isName x = true) ∧ s' = ⟨ts,finish,unread⟩ := by
  cases said : Quoted.text? text with
  | none =>
    have opened : (property strict).run ⟨.literal text place :: ts,finish,unread⟩ =
        name.run ⟨.literal text place :: ts,finish,unread⟩ := by
      rw [property,run_bind,run_tokens]
      simp only [Except.bind,said]
    rw [opened]
    exact iff_of_false (by rintro ⟨⟩) (by simp)
  | some value =>
    have opened : (property strict).run ⟨.literal text place :: ts,finish,unread⟩ =
        (do
          if strict && !isName value then fail (.rule "expected a field name")
          setTokens ts
          return value : Reader String).run ⟨.literal text place :: ts,finish,unread⟩ := by
      rw [property,run_bind,run_tokens]
      simp only [Except.bind,said]
    rw [opened,Option.some.injEq]
    by_cases refused : (strict && !isName value) = true
    · rw [if_pos refused]
      simp only [Bool.and_eq_true,Bool.not_eq_true'] at refused
      refine iff_of_false (by rintro ⟨⟩) ?_
      rintro ⟨rfl,fits,_⟩
      exact Bool.false_ne_true (refused.2.symm.trans (fits refused.1))
    · rw [if_neg refused,taking_ok_iff]
      refine and_congr_right fun same => (and_iff_right fun checked => ?_).symm
      subst same
      simpa [checked] using refused

theorem property_ok_iff : (property strict).run s = .ok (x,s') ↔ ∃ t ts, s.tokens = t :: ts ∧ t.property? = some x ∧
    (strict = true → t.isMisnamed = false) ∧ s' = { s with tokens := ts } := by
  obtain ⟨ts,finish,unread⟩ := s
  rcases ts with _ | ⟨t,ts⟩
  · simp only [List.nil_eq,reduceCtorEq,false_and,exists_false,iff_false]
    rintro ⟨⟩
  simp only [List.cons.injEq,existsAndEq,true_and]
  cases t with
  | word text place =>
    rw [property_word_ok_iff]
    simp [TokenTree.property?,TokenTree.isMisnamed,and_assoc]
  | literal text place =>
    rw [property_literal_ok_iff,TokenTree.property?]
    refine and_congr_right fun said => ?_
    simp [TokenTree.isMisnamed,said]
  | mark c joint place =>
    simp only [TokenTree.property?,reduceCtorEq,false_and,iff_false]
    rintro ⟨⟩
  | group d place closing body =>
    simp only [TokenTree.property?,reduceCtorEq,false_and,iff_false]
    rintro ⟨⟩

/-- Arguments between commas; another comma may follow the last one. -/
inductive Written : List TokenTree → List TokenTree → Prop
  | none : Written [] []
  | last (t : TokenTree) : Written [t] [t]
  | more (t : TokenTree) (joint : Bool) (place : Position) {args ts : List TokenTree} (rest : Written args ts) :
    Written (t :: args) (t :: .mark ',' joint place :: ts)

theorem Written.mem {args ts : List TokenTree} (written : Written args ts) : ∀ t ∈ args, t ∈ ts := by
  induction written with
  | none => simp
  | last t => simp
  | more t joint place rest ih =>
    intro u member
    rcases List.mem_cons.mp member with rfl | member
    · exact List.mem_cons_self
    · exact List.mem_cons_of_mem _ (List.mem_cons_of_mem _ (ih u member))

theorem afterComma_eq_some_iff {ts rest : List TokenTree} : TokenTree.afterMarks? ",".toList ts = some rest ↔
    ∃ joint place, ts = .mark ',' joint place :: rest := by
  cases ts with
  | nil => simp [TokenTree.afterMarks?]
  | cons t ts =>
    cases t with
    | mark c joint place =>
      have marked : TokenTree.afterMarks? ",".toList (.mark c joint place :: ts) =
          if ',' = c then some ts else none := rfl
      rw [marked]
      by_cases comma : ',' = c
      · simp [← comma]
      · simp [comma,Ne.symm comma]
    | word text place => simp [TokenTree.afterMarks?]
    | literal text place => simp [TokenTree.afterMarks?]
    | group d place closing body => simp [TokenTree.afterMarks?]

theorem separatedWithin_ok_iff {t : TokenTree} {ts : List TokenTree} {finish : Position}
    {unread : Option SyntaxFault} {bound : Nat} :
    (separatedWithin "," atEnd (property strict) (bound + 1)).run ⟨t :: ts,finish,unread⟩ = .ok (xs,s') ↔
      ∃ x, t.property? = some x ∧ (strict = true → t.isMisnamed = false) ∧
        ((ts = [] ∧ xs = [x] ∧ s' = ⟨[],finish,unread⟩) ∨
          ∃ joint place rest ys, ts = .mark ',' joint place :: rest ∧ xs = x :: ys ∧
            (separatedWithin "," atEnd (property strict) bound).run ⟨rest,finish,unread⟩ = .ok (ys,s')) := by
  have opened : (separatedWithin "," atEnd (property strict) (bound + 1)).run ⟨t :: ts,finish,unread⟩ =
      (do
        let x ← property strict
        if ← atEnd then return [x]
        mark ","
        return x :: (← separatedWithin "," atEnd (property strict) bound) : Reader (List String)).run
          ⟨t :: ts,finish,unread⟩ := rfl
  rw [opened]
  constructor
  · intro done
    obtain ⟨x,s₁,first,done⟩ := bind_ok done
    obtain ⟨_,_,split,named,fits,rfl⟩ := property_ok_iff.mp first
    obtain ⟨rfl,rfl⟩ := List.cons.inj split
    refine ⟨x,named,fits,?_⟩
    rw [run_bind,run_atEnd] at done
    rcases ts with _ | ⟨c,ts⟩
    · cases done
      exact .inl ⟨rfl,rfl,rfl⟩
    · obtain ⟨_,s₂,marked,done⟩ := bind_ok (r := mark ",") done
      obtain ⟨rest,comes,rfl⟩ := mark_ok marked
      obtain ⟨joint,place,split⟩ := afterComma_eq_some_iff.mp comes
      obtain ⟨ys,s₃,later,done⟩ := bind_ok done
      cases done
      exact .inr ⟨joint,place,rest,ys,split,rfl,later⟩
  · rintro ⟨x,named,fits,last⟩
    have first : (property strict).run ⟨t :: ts,finish,unread⟩ = .ok (x,⟨ts,finish,unread⟩) :=
      property_ok_iff.mpr ⟨t,ts,rfl,named,fits,rfl⟩
    rw [run_bind_of_ok first]
    rcases last with ⟨rfl,rfl,rfl⟩ | ⟨joint,place,rest,ys,rfl,rfl,later⟩
    · rfl
    · show ((separatedWithin "," atEnd (property strict) bound).run ⟨rest,finish,unread⟩).bind _ = _
      rw [later]
      rfl

theorem separatedWithin_written {bound : Nat} (above : s.tokens.length < bound) :
    (separatedWithin "," atEnd (property strict) bound).run s = .ok (xs,s') ↔ ∃ args, Written args s.tokens ∧
      List.Forall₂ (fun t x => TokenTree.property? t = some x) args xs ∧
        (strict = true → ∀ t ∈ args, t.isMisnamed = false) ∧ s' = { s with tokens := [] } := by
  induction bound generalizing s xs with
  | zero => exact absurd above (Nat.not_lt_zero _)
  | succ bound ih =>
    obtain ⟨ts,finish,unread⟩ := s
    rcases ts with _ | ⟨t,ts⟩
    · constructor
      · rintro ⟨⟩
        exact ⟨[],.none,.nil,by simp,rfl⟩
      · rintro ⟨args,written,named,_,rfl⟩
        cases written
        cases named
        rfl
    rw [separatedWithin_ok_iff]
    constructor
    · rintro ⟨x,named,fits,⟨rfl,rfl,rfl⟩ | ⟨joint,place,rest,ys,rfl,rfl,later⟩⟩
      · exact ⟨[t],.last t,.cons named .nil,by simpa using fits,rfl⟩
      · obtain ⟨args,written,named',fits',rfl⟩ := (ih (by simp at above ⊢; omega)).mp later
        refine ⟨t :: args,.more t joint place written,.cons named named',fun checked => ?_,rfl⟩
        exact List.forall_mem_cons.mpr ⟨fits checked,fits' checked⟩
    · rintro ⟨args,written,named,fits,rfl⟩
      cases written with
      | last t =>
        obtain _ | ⟨named,⟨⟩⟩ := named
        exact ⟨_,named,fun checked => fits checked t List.mem_cons_self,.inl ⟨rfl,rfl,rfl⟩⟩
      | more t joint place rest =>
        obtain _ | ⟨named,named'⟩ := named
        refine ⟨_,named,fun checked => fits checked t List.mem_cons_self,.inr ⟨joint,place,_,_,rfl,rfl,?_⟩⟩
        exact (ih (by simp at above ⊢; omega)).mpr
          ⟨_,rest,named',fun checked u member => fits checked u (List.mem_cons_of_mem t member),rfl⟩

theorem read_ok_iff {kind extras : String} {finish : Position} {ts : List TokenTree} :
    (read strict).runAll finish ts = .ok (kind,extras) ↔ ∃ first second, Written [first,second] ts ∧
      first.property? = some kind ∧ second.property? = some extras ∧
        (strict = true → first.isMisnamed = false ∧ second.isMisnamed = false) := by
  have listed : ∀ s p s', (read strict).run s = .ok (p,s') ↔
      (commaList (property strict)).run s = .ok ([p.1,p.2],s') := by
    intro s p s'
    unfold read
    rw [run_bind]
    cases (commaList (property strict)).run s with
    | error fault => simp [Except.bind]
    | ok q =>
      obtain ⟨xs,s₁⟩ := q
      simp only [Except.bind,Except.ok.injEq,Prod.mk.injEq]
      split
      · rw [run_pure]
        simp [Prod.ext_iff]
      · next other =>
        refine iff_of_false (by rintro ⟨⟩) ?_
        rintro ⟨same,_⟩
        exact other _ _ same
  rw [runAll_ok_iff]
  simp only [listed]
  have above : ts.length < ts.length + 1 := Nat.lt_succ_self _
  have bounded : ∀ s', (commaList (property strict)).run ⟨ts,finish,none⟩ = .ok ([kind,extras],s') ↔ _ :=
    fun s' => separatedWithin_written (s := ⟨ts,finish,none⟩) above
  simp only [bounded]
  constructor
  · rintro ⟨_,⟨args,written,named,fits,rfl⟩,_,_⟩
    obtain _ | ⟨first,_ | ⟨second,⟨⟩⟩⟩ := named
    exact ⟨_,_,written,first,second,fun checked => by simpa using fits checked⟩
  · rintro ⟨first,second,written,named,named',fits⟩
    exact ⟨_,⟨[first,second],written,.cons named (.cons named' .nil),fun checked => by simpa using fits checked,rfl⟩,
      rfl,rfl⟩

/-- Where a check makes a difference, an argument is a string literal whose text is no name. -/
theorem exists_misnamed {p : String × String} {start finish : Position} {ts : List TokenTree}
    (lenient : (read false).runAll finish ts = .ok p) (refused : ∀ q, (read true).runAll start ts ≠ .ok q) :
    ∃ literal place value, .literal literal place ∈ ts ∧ Quoted.text? literal = some value ∧ isName value = false := by
  obtain ⟨first,second,written,named,named',_⟩ := read_ok_iff.mp lenient
  have misnamed : ∃ t ∈ [first,second], t.isMisnamed = true := by
    by_contra fits
    simp only [List.mem_cons,List.not_mem_nil,or_false,exists_eq_or_imp,exists_eq_left,not_or,Bool.not_eq_true] at fits
    exact refused p (read_ok_iff.mpr ⟨first,second,written,named,named',fun _ => fits⟩)
  obtain ⟨t,member,misnamed⟩ := misnamed
  obtain ⟨literal,place,value,rfl,said,unfit⟩ := TokenTree.isMisnamed_iff.mp misnamed
  exact ⟨literal,place,value,written.mem _ member,said,unfit⟩

end DirectiveArgs

/-- An item with a directive among its attributes, and the item that is left without it. Other attributes may stand
before the directive, but no directive does. -/
inductive Carries (name : String) (arguments : List TokenTree) : List TokenTree → List TokenTree → Prop
  | here {place : Position} {directive : List TokenTree} (written : Attribute.Written name arguments place directive)
    (item : List TokenTree) : Carries name arguments item (directive ++ item)
  | after {joint : Bool} {place opening closing : Position} {body item source : List TokenTree}
    (other : ∀ unread a s, (Attribute.content place).run ⟨body,closing,unread⟩ = .ok (a,s) → a.lastName? ≠ some name)
    (carries : Carries name arguments item source) :
    Carries name arguments (.mark '#' joint place :: .group .bracket opening closing body :: item)
      (.mark '#' joint place :: .group .bracket opening closing body :: source)

namespace Carries

variable {name : String} {arguments item source : List TokenTree} {finish : Position} {unread : Option SyntaxFault}

/-- The directive is the first of its name among the attributes, and what follows them is the same. -/
theorem outer (carries : Carries name arguments item source) {attributes : List Attribute} {s : Stream}
    (done : Attribute.outer.run ⟨item,finish,unread⟩ = .ok (attributes,s)) :
    ∃ attributes' a closed, Attribute.outer.run ⟨source,finish,unread⟩ = .ok (attributes',s) ∧
      attributes'.find? (·.lastName? == some name) = some a ∧ a.args = .list arguments closed := by
  induction carries generalizing attributes unread with
  | here written item =>
    obtain ⟨a,closed,_,named,arguments,read⟩ := written.outer item
    refine ⟨a :: attributes,a,closed,by rw [read,done]; rfl,?_,arguments⟩
    rw [List.find?_cons_of_pos (by simp [named])]
  | @after joint place opening closing body item source other carries ih =>
    rw [Attribute.outer_cons] at done ⊢
    cases first : (Attribute.content place).run ⟨body,closing,unread⟩ with
    | error fault =>
      rw [first] at done
      cases done
    | ok p =>
      rw [first] at done
      simp only [Except.bind] at done ⊢
      cases later : Attribute.outer.run ⟨item,finish,leftIn .bracket p.2⟩ with
      | error fault =>
        rw [later] at done
        cases done
      | ok q =>
        rw [later] at done
        cases done
        obtain ⟨attributes',a,closed,read,found,given⟩ := ih later
        refine ⟨p.1 :: attributes',a,closed,by rw [read]; rfl,?_,given⟩
        rw [List.find?_cons_of_neg (by simpa using other unread p.1 p.2 first),found]

end Carries

namespace Item

variable {s s' : Stream}

def fileChars (text : String) : List Char :=
  withoutLoaderLine (match text.toList with
    | '\ufeff' :: rest => rest
    | cs => cs)

theorem ofText?_of_tokens {text : String} {ts : List TokenTree} (tokens : TokenTree.ofChars (fileChars text) = .ok ts) :
    ofText? text = file.runAll .start ts := by
  have opened : ofText? text = file.runText (fileChars text) := rfl
  rw [opened,runText,tokens]

theorem structItem_eq (attributes : List Attribute) : structItem attributes =
    (fun i => { i with attributes }) <$> structItem [] := by
  simp [structItem]

theorem structItem_begins {attributes : List Attribute} {i : StructItem}
    (done : (structItem attributes).run s = .ok (i,s')) : ∃ place ts, s.tokens = .word "struct" place :: ts := by
  obtain ⟨_,s₁,first,_⟩ := bind_ok done
  obtain ⟨came,s₂,tried,last⟩ := bind_ok first
  rw [run_word?] at tried
  split at tried
  · next comes =>
    match split : s.tokens with
    | .word text place :: ts =>
      rw [split] at comes
      obtain rfl : text = "struct" := beq_iff_eq.mp comes
      exact ⟨place,ts,rfl⟩
    | [] => simp [split,beginsWord] at comes
    | .mark c joint place :: ts => simp [split,beginsWord] at comes
    | .literal text place :: ts => simp [split,beginsWord] at comes
    | .group d place closing body :: ts => simp [split,beginsWord] at comes
  · cases tried
    cases last

theorem run_beginsFunction_struct (place : Position) (ts : List TokenTree) (finish : Position)
    (unread : Option SyntaxFault) : (beginsFunction false).run ⟨.word "struct" place :: ts,finish,unread⟩ =
      .ok (false,⟨.word "struct" place :: ts,finish,unread⟩) := by
  rfl

theorem Kind.run_readFirst {α : Type} {kinds : List (Kind α)} (kind : Kind α)
    (found : kinds.find? (·.sign s.tokens) = some kind) : (readFirst kinds).run s = kind.read.run s := by
  rw [readFirst,run_bind,run_tokens]
  simp only [Except.bind,found]

theorem run_read_struct {attributes : List Attribute} {visible : Bool} {i : StructItem} {s₁ s₂ : Stream}
    (nested : Reader Item) (first : Attribute.outer.run s = .ok (attributes,s₁))
    (second : visibility.run s₁ = .ok (visible,s₂)) (last : (structItem attributes).run s₂ = .ok (i,s')) :
    (read nested).run s = .ok (.struct i,s') := by
  obtain ⟨place,ts,begins⟩ := structItem_begins last
  obtain ⟨_,finish,unread⟩ := s₂
  obtain rfl : _ = TokenTree.word "struct" place :: ts := begins
  rw [read,run_bind_of_ok first,run_bind_of_ok second,run_bind_of_ok (run_beginsFunction_struct place ts finish unread)]
  show StateT.run (Kind.readFirst _) _ = _
  rw [Kind.run_readFirst (.ofWord "struct" (do return .struct (← structItem attributes))) rfl]
  show StateT.run (structItem attributes >>= _) _ = _
  rw [run_bind_of_ok last]
  rfl

theorem run_untilEnd_one {α : Type} {item : Reader α} {x : α} (filled : s.tokens ≠ [])
    (read : item.run s = .ok (x,s')) (empty : s'.tokens = []) : (untilEnd item).run s = .ok ([x],s') := by
  obtain ⟨t,ts,split⟩ := List.exists_cons_of_ne_nil filled
  have opened : (untilEnd item).run s =
      (whileWithin (do return !(← atEnd)) item (s.tokens.length + 1)).run s := rfl
  have goes : (do return !(← atEnd) : Reader Bool).run s = .ok (true,s) := by
    show Except.ok (!s.tokens.isEmpty,s) = _
    rw [split]
    rfl
  have stops : (do return !(← atEnd) : Reader Bool).run s' = .ok (false,s') := by
    show Except.ok (!s'.tokens.isEmpty,s') = _
    rw [empty]
    rfl
  rw [opened,split,List.length_cons,whileWithin,run_bind_of_ok goes]
  simp only [if_true]
  rw [run_bind_of_ok read,whileWithin,run_bind,run_bind_of_ok stops]
  rfl

theorem file_of_struct {joint : Bool} {place opening closing : Position} {body ts : List TokenTree}
    {attributes : List Attribute} {visible : Bool} {i : StructItem} {s₁ s₂ : Stream}
    (first : Attribute.outer.run ⟨.mark '#' joint place :: .group .bracket opening closing body :: ts,.start,none⟩ =
      .ok (attributes,s₁))
    (second : visibility.run s₁ = .ok (visible,s₂)) (last : (structItem attributes).run s₂ = .ok (i,s'))
    (empty : s'.tokens = []) (whole : s'.unread = none) :
    file.runAll .start (.mark '#' joint place :: .group .bracket opening closing body :: ts) = .ok [.struct i] := by
  rw [runAll_ok_iff]
  refine ⟨s',?_,empty,whole⟩
  rw [file,run_bind,run_tokens]
  show StateT.run (Attribute.inner >>= _) _ = _
  have plain : Attribute.inner.run ⟨.mark '#' joint place :: .group .bracket opening closing body :: ts,.start,none⟩ =
      .ok ((),⟨.mark '#' joint place :: .group .bracket opening closing body :: ts,.start,none⟩) := rfl
  rw [run_bind_of_ok plain]
  exact run_untilEnd_one (List.cons_ne_nil _ _) (run_read_struct _ first second last) empty

end Item

namespace Carries

variable {name : String} {arguments item source : List TokenTree} {i : StructItem}

theorem begins (carries : Carries name arguments item source) : ∃ joint place opening closing body ts,
    source = .mark '#' joint place :: .group .bracket opening closing body :: ts := by
  cases carries with
  | here written item => cases written <;> exact ⟨_,_,_,_,_,_,rfl⟩
  | after other carries => exact ⟨_,_,_,_,_,_,rfl⟩

/-- A file that is one struct with a directive holds that struct, with the directive among its attributes. -/
theorem file (carries : Carries name arguments item source) (struct : StructItem.reader.runAll .start item = .ok i) :
    ∃ attributes a closed, Item.file.runAll .start source = .ok [.struct { i with attributes }] ∧
      attributes.find? (·.lastName? == some name) = some a ∧ a.args = .list arguments closed := by
  obtain ⟨s,done,empty,whole⟩ := runAll_ok_iff.mp struct
  obtain ⟨attributes,s₁,first,done⟩ := bind_ok done
  obtain ⟨_,s₂,shown,last⟩ := bind_ok done
  obtain ⟨visible,second,_⟩ := map_ok shown
  obtain ⟨attributes',a,closed,first',found,given⟩ := carries.outer first
  refine ⟨attributes',a,closed,?_,found,given⟩
  have last' : (Item.structItem attributes').run s₂ = .ok ({ i with attributes := attributes' },s) := by
    rw [Item.structItem_eq] at last ⊢
    obtain ⟨j,read,rfl⟩ := map_ok last
    rw [StateT.run_map,read]
    rfl
  obtain ⟨joint,place,opening,closing,body,ts,rfl⟩ := carries.begins
  exact Item.file_of_struct first' second last' empty whole

end Carries

theorem Marker.check_ok_iff {arguments item : List TokenTree} : Marker.check arguments item = .ok () ↔
    (∃ p, (DirectiveArgs.read true).runAll .start arguments = .ok p) ∧
      ∃ i, StructItem.reader.runAll .start item = .ok i ∧ i.generic = false := by
  unfold Marker.check
  cases (DirectiveArgs.read true).runAll .start arguments with
  | error fault =>
    refine iff_of_false ?_ ?_
    · rintro ⟨⟩
    · rintro ⟨⟨_,⟨⟩⟩,_⟩
  | ok p =>
    cases StructItem.reader.runAll .start item with
    | error fault =>
      refine iff_of_false ?_ ?_
      · rintro ⟨⟩
      · rintro ⟨_,_,⟨⟩,_⟩
    | ok i =>
      change (if i.generic = true then Except.error (genericRefusal i.name) else .ok ()) = .ok () ↔ _
      cases generic : i.generic <;> simp [generic]

namespace Search

variable {s : Search} {text : String} {arguments item source : List TokenTree} {i : StructItem}

theorem ofText_of_carries (struct : StructItem.reader.runAll .start item = .ok i)
    (carries : Carries s.directive arguments item source)
    (tokens : TokenTree.ofChars (Item.fileChars text) = .ok source) (namespaceName : String) :
    ∃ attributes a closed, a.args = .list arguments closed ∧ s.ofText namespaceName text =
      .ok (match s.component? namespaceName { i with attributes } a with
        | .ok c => ⟨[c],[],[]⟩
        | .error e => ⟨[],[],[e]⟩) := by
  obtain ⟨attributes,a,closed,held,found,given⟩ := carries.file struct
  refine ⟨attributes,a,closed,given,?_⟩
  have chosen : s.attribute? { i with attributes } = some a := found
  rw [ofText,Item.ofText?_of_tokens tokens,held]
  simp only [ofItems,ofItem,ofStruct,chosen]
  cases s.component? namespaceName { i with attributes } a <;> rfl

theorem component?_eq (s : Search) (namespaceName : String) (i : StructItem) {a : Attribute} {closed : Position}
    (given : a.args = .list arguments closed) : s.component? namespaceName i a =
      if i.generic then .error (.directive (a.place.inFile s.file) (genericRefusal i.name))
      else match (DirectiveArgs.read false).runAll closed arguments with
        | .ok p => .ok (s.component namespaceName i (a.place.inFile s.file) p)
        | .error fault => .error (.directive (a.place.inFile s.file) fault.message) := by
  have passed : DirectiveArgs.ofAttribute a = (DirectiveArgs.read false).runAll closed arguments := by
    simp only [DirectiveArgs.ofAttribute,given]
  cases read : (DirectiveArgs.read false).runAll closed arguments with
  | ok p => simp only [component?,passed,read]
  | error fault => simp only [component?,passed,read]

/-- A directive that the marker accepts makes a component of its struct, and nothing else; one that it refuses does
so only if an argument is a string literal whose text is no name. -/
theorem ofText_carries (struct : StructItem.reader.runAll .start item = .ok i)
    (carries : Carries s.directive arguments item source)
    (tokens : TokenTree.ofChars (Item.fileChars text) = .ok source) (namespaceName : String) :
    (Marker.check arguments item = .ok () → ∃ c first second, s.ofText namespaceName text = .ok ⟨[c],[],[]⟩ ∧
      c.name = i.name ∧ DirectiveArgs.Written [first,second] arguments ∧
      first.property? = some c.directive.kindProperty ∧ second.property? = some c.directive.extrasProperty) ∧
    (∀ found, s.ofText namespaceName text = .ok found → found.components ≠ [] → Marker.check arguments item ≠ .ok () →
      ∃ literal place value, .literal literal place ∈ arguments ∧ Quoted.text? literal = some value ∧
        DirectiveArgs.isName value = false) := by
  obtain ⟨attributes,a,closed,given,looked⟩ := ofText_of_carries struct carries tokens namespaceName
  rw [component?_eq s namespaceName _ given] at looked
  rw [looked]
  constructor
  · intro accepted
    obtain ⟨⟨⟨kind,extras⟩,checked⟩,i',struct',plain⟩ := Marker.check_ok_iff.mp accepted
    obtain rfl : i = i' := Except.ok.inj (struct.symm.trans struct')
    obtain ⟨first,second,written,named,named',_⟩ := DirectiveArgs.read_ok_iff.mp checked
    have lenient : (DirectiveArgs.read false).runAll closed arguments = .ok (kind,extras) :=
      DirectiveArgs.read_ok_iff.mpr ⟨first,second,written,named,named',by simp⟩
    refine ⟨s.component namespaceName { i with attributes } (a.place.inFile s.file) (kind,extras),first,second,?_,rfl,
      written,named,named'⟩
    simp only [plain,Bool.false_eq_true,if_false,lenient]
  · intro found found_eq filled refused
    cases plain : i.generic with
    | true =>
      simp only [plain,if_true] at found_eq
      cases found_eq
      exact absurd rfl filled
    | false =>
      cases lenient : (DirectiveArgs.read false).runAll closed arguments with
      | error fault =>
        simp only [plain,Bool.false_eq_true,if_false,lenient] at found_eq
        cases found_eq
        exact absurd rfl filled
      | ok p =>
        have unfit : ∀ q, (DirectiveArgs.read true).runAll .start arguments ≠ .ok q :=
          fun q checked => refused (Marker.check_ok_iff.mpr ⟨⟨q,checked⟩,i,struct,plain⟩)
        exact DirectiveArgs.exists_misnamed lenient unfit

def iconSearch : Search := ⟨⟨"icon.rs"⟩,"generate_svg"⟩

def iconItem : List TokenTree :=
  [.mark '#' false ⟨1,1⟩,.group .bracket ⟨1,2⟩ ⟨1,7⟩ [.word "cold" ⟨1,3⟩],
    .word "struct" ⟨3,1⟩,.word "Icon" ⟨3,8⟩,.group .brace ⟨3,13⟩ ⟨3,34⟩
      [.word "kind" ⟨3,14⟩,.mark ':' false ⟨3,18⟩,.word "Kind" ⟨3,20⟩,.mark ',' false ⟨3,24⟩,
        .word "rest" ⟨3,26⟩,.mark ':' false ⟨3,30⟩,.word "Map" ⟨3,31⟩]]

def iconArguments : List TokenTree :=
  [.word "kind" ⟨2,16⟩,.mark ',' false ⟨2,20⟩,.literal "\"rest\"" ⟨2,22⟩,.mark ',' false ⟨2,28⟩]

def iconText : String := "#[cold]\n#[generate_svg(kind, \"rest\",)]\nstruct Icon {kind: Kind, rest:Map}"

def unitItem : List TokenTree := [.word "struct" ⟨2,1⟩,.word "Icon" ⟨2,8⟩,.mark ';' false ⟨2,12⟩]

def unitArguments : List TokenTree :=
  [.word "kind" ⟨1,16⟩,.mark ',' false ⟨1,20⟩,.literal "\"the rest\"" ⟨1,22⟩]

def unitText : String := "#[generate_svg(kind, \"the rest\")]\nstruct Icon;"

/-- A directive below another attribute, with a comma behind its arguments; and one whose second argument is no name,
so that only the marker refuses it. -/
theorem ofText_carries_icon :
    (∃ i source, StructItem.reader.runAll .start iconItem = .ok i ∧
      Carries iconSearch.directive iconArguments iconItem source ∧
      TokenTree.ofChars (Item.fileChars iconText) = .ok source ∧ Marker.check iconArguments iconItem = .ok () ∧
      ∃ c first second, iconSearch.ofText "" iconText = .ok ⟨[c],[],[]⟩ ∧ c.name = i.name ∧
        DirectiveArgs.Written [first,second] iconArguments ∧ first.property? = some c.directive.kindProperty ∧
        second.property? = some c.directive.extrasProperty) ∧
    (∃ i source found, StructItem.reader.runAll .start unitItem = .ok i ∧
      Carries iconSearch.directive unitArguments unitItem source ∧
      TokenTree.ofChars (Item.fileChars unitText) = .ok source ∧ iconSearch.ofText "" unitText = .ok found ∧
      found.components ≠ [] ∧ Marker.check unitArguments unitItem ≠ .ok () ∧
      ∃ literal place value, .literal literal place ∈ unitArguments ∧ Quoted.text? literal = some value ∧
        DirectiveArgs.isName value = false) := by
  have path : ∀ place, Attribute.PathWritten ["generate_svg"] [.word "generate_svg" place] := .last (by decide)
  constructor
  · have struct : StructItem.reader.runAll .start iconItem = .ok _ := rfl
    have carries : Carries iconSearch.directive iconArguments iconItem _ :=
      .after (by rintro unread a s ⟨⟩; decide)
        (.here (.plain (path ⟨2,3⟩) rfl false ⟨2,1⟩ ⟨2,2⟩ ⟨2,30⟩ ⟨2,15⟩ ⟨2,29⟩ .parenthesis) _)
    have tokens : TokenTree.ofChars (Item.fileChars iconText) = .ok _ := rfl
    have accepted : Marker.check iconArguments iconItem = .ok () := rfl
    exact ⟨_,_,struct,carries,tokens,accepted,(ofText_carries struct carries tokens "").1 accepted⟩
  · have struct : StructItem.reader.runAll .start unitItem = .ok _ := rfl
    have carries : Carries iconSearch.directive unitArguments unitItem _ :=
      .here (.plain (path ⟨1,3⟩) rfl false ⟨1,1⟩ ⟨1,2⟩ ⟨1,33⟩ ⟨1,15⟩ ⟨1,32⟩ .parenthesis) _
    have tokens : TokenTree.ofChars (Item.fileChars unitText) = .ok _ := rfl
    have refused : (Marker.check unitArguments unitItem).isOk = false := by decide +kernel
    have refused : Marker.check unitArguments unitItem ≠ .ok () := by
      intro accepted
      rw [accepted] at refused
      cases refused
    have counted : (iconSearch.ofText "" unitText).toOption.map (·.components.length) = some 1 := by decide +kernel
    obtain ⟨found,looked,one⟩ := Option.map_eq_some_iff.mp counted
    have looked : iconSearch.ofText "" unitText = .ok found := by
      cases done : iconSearch.ofText "" unitText with
      | error e =>
        rw [done] at looked
        cases looked
      | ok f =>
        rw [done] at looked
        cases looked
        rfl
    have filled : found.components ≠ [] := List.ne_nil_of_length_eq_add_one one
    exact ⟨_,_,found,struct,carries,tokens,looked,filled,refused,
      (ofText_carries struct carries tokens "").2 found looked filled refused⟩

end Search

end InlineIcons.Source
