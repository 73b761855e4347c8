import InlineIcons.Diagnostic
import InlineIcons.Proofs.Json.Text
import InlineIcons.Proofs.Text.Cut
import Mathlib.Data.List.Find

/-! Messages and their templates. The arguments are filled in one after another, so the places that an earlier argument
brings along are filled by the later ones. What stands in a message at last is the template with each place filled in
one pass, by an argument to which this has already been done. -/
namespace InlineIcons.Diagnostic

/-- Reads a text once from left to right and puts the value of a mark wherever one begins; `skip` counts the characters
that belong to a mark already replaced. Values are not read again. -/
def substituteAll (marks : List (List Char × List Char)) : Nat → List Char → List Char
  | _, [] => []
  | skip + 1, _ :: cs => substituteAll marks skip cs
  | 0, c :: cs =>
    match marks.find? (·.1.isPrefixOf (c :: cs)) with
    | some (mark, value) => value ++ substituteAll marks (mark.length - 1) cs
    | none => c :: substituteAll marks 0 cs

/-- Fills all places of a text in one pass. -/
def fillAll (args : List String) (text : List Char) : List Char :=
  substituteAll (args.mapIdx fun index arg => (place index, arg.toList)) 0 text

/-- The arguments as they stand in a message: each with its places filled by the arguments after it. -/
def settled (args : List String) : List String :=
  args.mapIdx fun index arg => String.ofList (fill (index + 1) arg.toList (args.drop (index + 1)))

section Passes

variable {marks : List (List Char × List Char)} {mark value before after cs : List Char} {c : Char}

/-- Replacing one mark is a pass over the text for this mark alone. -/
theorem substitute_eq (mark value : List Char) (skip : Nat) (cs : List Char) :
    substitute mark value skip cs = substituteAll [(mark,value)] skip cs := by
  induction cs generalizing skip with
  | nil => cases skip <;> rfl
  | cons c cs ih =>
    cases skip with
    | succ skip => exact ih skip
    | zero =>
      rw [substitute,substituteAll,List.find?_cons]
      cases mark.isPrefixOf (c :: cs) with
      | true => simp only [if_true,ih]
      | false => simp only [Bool.false_eq_true,if_false,List.find?_nil,ih]

theorem substituteAll_drop (skip : Nat) (cs : List Char) :
    substituteAll marks skip cs = substituteAll marks 0 (cs.drop skip) := by
  induction cs generalizing skip with
  | nil => cases skip <;> simp [substituteAll]
  | cons c cs ih =>
    cases skip with
    | zero => rfl
    | succ skip =>
      rw [substituteAll,List.drop_succ_cons]
      exact ih skip

theorem isPrefixOf_append_cons (apart : c ∉ mark) (before after : List Char) :
    mark.isPrefixOf (before ++ c :: after) = mark.isPrefixOf before := by
  rw [Bool.eq_iff_iff,List.isPrefixOf_iff_prefix,List.isPrefixOf_iff_prefix]
  constructor
  · intro begins
    rcases List.prefix_or_prefix_of_prefix begins (List.prefix_append before (c :: after)) with inside | ⟨rest,rfl⟩
    · exact inside
    · rw [List.prefix_append_right_inj] at begins
      cases rest with
      | nil => exact (List.append_nil before).symm ▸ List.prefix_rfl
      | cons d rest =>
        obtain ⟨rfl,_⟩ := List.cons_prefix_cons.mp begins
        exact absurd (by simp) apart
  · exact fun inside => inside.trans (List.prefix_append before (c :: after))

/-- A character that is in no mark splits a text into two that are read apart from each other. -/
theorem substituteAll_split (filled : ∀ m ∈ marks, m.1 ≠ []) (apart : ∀ m ∈ marks, c ∉ m.1)
    (before after : List Char) : substituteAll marks 0 (before ++ c :: after) =
      substituteAll marks 0 before ++ c :: substituteAll marks 0 after := by
  have begins : ∀ before : List Char, marks.find? (·.1.isPrefixOf (before ++ c :: after)) =
      marks.find? (·.1.isPrefixOf before) :=
    fun before => List.find?_congr fun m member => isPrefixOf_append_cons (apart m member) before after
  suffices general : ∀ skip ≤ before.length, substituteAll marks skip (before ++ c :: after) =
      substituteAll marks skip before ++ c :: substituteAll marks 0 after from general 0 (Nat.zero_le _)
  induction before with
  | nil =>
    intro skip fits
    obtain rfl : skip = 0 := Nat.le_zero.mp fits
    have other : marks.find? (·.1.isPrefixOf ([] ++ c :: after)) = none := by
      rw [begins,List.find?_eq_none]
      simpa using filled
    rw [List.nil_append] at other ⊢
    rw [substituteAll,substituteAll,other]
    rfl
  | cons d before ih =>
    intro skip fits
    cases skip with
    | succ skip => exact ih skip (Nat.le_of_succ_le_succ fits)
    | zero =>
      have here := begins (d :: before)
      simp only [List.cons_append] at here ⊢
      rw [substituteAll,substituteAll,here]
      cases found : marks.find? (·.1.isPrefixOf (d :: before)) with
      | none =>
        dsimp only
        rw [ih 0 (Nat.zero_le _),List.cons_append]
      | some m =>
        have begun := List.find?_some found
        have inside : m.1.length ≤ before.length + 1 := (List.isPrefixOf_iff_prefix.mp begun).length_le
        dsimp only
        rw [ih (m.1.length - 1) (by omega),List.append_assoc]

/-- Where no mark occurs there is nothing to replace. -/
theorem substituteAll_self (free : ∀ m ∈ marks, ¬ m.1 <:+: cs) : substituteAll marks 0 cs = cs := by
  induction cs with
  | nil => rfl
  | cons c cs ih =>
    have none : marks.find? (·.1.isPrefixOf (c :: cs)) = none := by
      refine List.find?_eq_none.mpr fun m member begins => free m member ?_
      exact (List.isPrefixOf_iff_prefix.mp begins).isInfix
    rw [substituteAll,none]
    dsimp only
    rw [ih fun m member inside => free m member (inside.trans (List.suffix_cons c cs).isInfix)]

theorem substituteAll_begins (filled : mark ≠ []) (cs : List Char)
    (found : marks.find? (·.1.isPrefixOf (mark ++ cs)) = some (mark,value)) :
    substituteAll marks 0 (mark ++ cs) = value ++ substituteAll marks 0 cs := by
  obtain ⟨c,mark,rfl⟩ := List.exists_cons_of_ne_nil filled
  rw [List.cons_append] at found ⊢
  rw [substituteAll,found]
  dsimp only
  rw [substituteAll_drop,List.length_cons,Nat.add_sub_cancel,List.drop_left]

theorem substitute_of_absent (free : ¬ mark <:+: cs) (value : List Char) : substitute mark value 0 cs = cs := by
  rw [substitute_eq]
  exact substituteAll_self (by simpa using free)

theorem substitute_begins (filled : mark ≠ []) (value cs : List Char) :
    substitute mark value 0 (mark ++ cs) = value ++ substitute mark value 0 cs := by
  rw [substitute_eq,substitute_eq]
  refine substituteAll_begins filled cs (List.find?_cons_of_pos ?_)
  exact List.isPrefixOf_iff_prefix.mpr (List.prefix_append mark cs)

theorem substitute_cut (filled : mark ≠ []) (value : List Char) (cut : Text.cutAt? mark cs = some (before,after)) :
    substitute mark value 0 cs = before ++ value ++ substitute mark value 0 after := by
  induction cs generalizing before with
  | nil =>
    simp only [Text.cutAt?,Option.ite_none_right_eq_some] at cut
    exact absurd (List.eq_nil_of_prefix_nil (List.isPrefixOf_iff_prefix.mp cut.1)) filled
  | cons c cs ih =>
    rw [Text.cutAt?] at cut
    split at cut
    · next begins =>
      simp only [Option.some.injEq,Prod.mk.injEq] at cut
      obtain ⟨rfl,rfl⟩ := cut
      obtain ⟨rest,whole⟩ := List.isPrefixOf_iff_prefix.mp begins
      rw [← whole,substitute_begins filled,List.drop_left,List.nil_append]
    · next other =>
      simp only [Option.map_eq_some_iff,Prod.mk.injEq,Prod.exists] at cut
      obtain ⟨front,_,cut,rfl,rfl⟩ := cut
      rw [substitute,if_neg other,ih cut]
      simp

theorem not_infix_of_cutAt?_none (none : Text.cutAt? mark cs = none) : ¬ mark <:+: cs := by
  induction cs with
  | nil =>
    intro inside
    simp [Text.cutAt?,List.infix_nil.mp inside] at none
  | cons c cs ih =>
    rw [Text.cutAt?] at none
    split at none
    · cases none
    · next other =>
      intro inside
      rcases List.infix_cons_iff.mp inside with begins | inside
      · exact other (List.isPrefixOf_iff_prefix.mpr begins)
      · exact ih (Option.map_eq_none_iff.mp none) inside

/-- Each replacement changes the length by as much. -/
theorem exists_length_substitute (filled : mark ≠ []) (value cs : List Char) :
    ∃ count, (substitute mark value 0 cs).length + count * mark.length = cs.length + count * value.length := by
  induction length : cs.length using Nat.strongRecOn generalizing cs with
  | ind n ih =>
    cases cut : Text.cutAt? mark cs with
    | none =>
      have free := not_infix_of_cutAt?_none cut
      exact ⟨0,by rw [substitute_of_absent free,length,Nat.zero_mul,Nat.zero_mul]⟩
    | some parts =>
      obtain ⟨before,after⟩ := parts
      have whole := congrArg List.length (Text.eq_append_of_cutAt? cut)
      have some := List.length_pos_iff.mpr filled
      rw [List.length_append,List.length_append,length] at whole
      obtain ⟨count,counted⟩ := ih after.length (by omega) after rfl
      refine ⟨count + 1,?_⟩
      rw [substitute_cut filled value cut,List.length_append,List.length_append,Nat.succ_mul,Nat.succ_mul]
      omega

theorem substitute_same (filled : mark ≠ []) (cs : List Char) : substitute mark mark 0 cs = cs := by
  induction length : cs.length using Nat.strongRecOn generalizing cs with
  | ind n ih =>
    cases cut : Text.cutAt? mark cs with
    | none => exact substitute_of_absent (not_infix_of_cutAt?_none cut) mark
    | some parts =>
      obtain ⟨before,after⟩ := parts
      have whole := Text.eq_append_of_cutAt? cut
      have some := List.length_pos_iff.mpr filled
      have shorter : after.length < n := by
        rw [← length,whole,List.length_append,List.length_append]
        omega
      rw [substitute_cut filled mark cut,ih after.length shorter after rfl,whole]

theorem substitute_eq_self_iff (filled : mark ≠ []) :
    substitute mark value 0 cs = cs ↔ ¬ mark <:+: cs ∨ value = mark := by
  constructor
  · intro same
    cases cut : Text.cutAt? mark cs with
    | none => exact .inl (not_infix_of_cutAt?_none cut)
    | some parts =>
      obtain ⟨before,after⟩ := parts
      obtain ⟨count,counted⟩ := exists_length_substitute filled value after
      rw [substitute_cut filled value cut,Text.eq_append_of_cutAt? cut,List.append_assoc,List.append_assoc,
        List.append_right_inj] at same
      have lengths := congrArg List.length same
      rw [List.length_append,List.length_append] at lengths
      have often : (count + 1) * value.length = (count + 1) * mark.length := by
        rw [Nat.succ_mul,Nat.succ_mul]
        omega
      exact .inr (List.append_inj same (Nat.eq_of_mul_eq_mul_left (Nat.succ_pos count) often)).1
  · rintro (free | rfl)
    · exact substitute_of_absent free value
    · exact substitute_same filled cs

end Passes

def isOutside (c : Char) : Bool := c ≠ '\x7b' && c ≠ '\x7d' && !c.isDigit

theorem place_ne_nil (index : Nat) : place index ≠ [] := by simp [place]

theorem isDigit_of_mem_number {index : Nat} {c : Char} (member : c ∈ (toString index).toList) : c.isDigit = true :=
  Nat.isDigit_of_mem_toDigits (by decide) (by decide) (Nat.toList_repr ▸ member)

theorem not_mem_place {c : Char} (outside : isOutside c = true) (index : Nat) : c ∉ place index := by
  intro member
  simp only [isOutside,Bool.and_eq_true,decide_eq_true_eq,Bool.not_eq_true'] at outside
  simp only [place,List.mem_append,List.mem_cons,List.not_mem_nil,or_false] at member
  rcases member with (rfl | digit) | rfl
  · exact outside.1.1 rfl
  · exact absurd (isDigit_of_mem_number digit) (by simp [outside.2])
  · exact outside.1.2 rfl

theorem place_prefix_iff {i j : Nat} {rest : List Char} : place i <+: place j ++ rest ↔ i = j := by
  have closing : ∀ index : Nat, '\x7d' ∉ (toString index).toList :=
    fun index member => absurd (isDigit_of_mem_number member) (by decide)
  constructor
  · rintro ⟨more,same⟩
    simp only [place,List.append_assoc,List.cons_append,List.nil_append,List.cons.injEq,true_and] at same
    have cut := congrArg (Text.cutAt? ['\x7d']) same
    rw [Text.cutAt?_single (closing i),Text.cutAt?_single (closing j)] at cut
    simp only [Option.some.injEq,Prod.mk.injEq] at cut
    exact Json.repr_eq_of_toList cut.1
  · rintro rfl
    exact List.prefix_append (place i) rest

theorem place_infix_iff {i j : Nat} : place i <:+: place j ↔ i = j := by
  constructor
  · intro inside
    rw [place,place,List.cons_append,List.cons_append] at inside
    rcases List.infix_cons_iff.mp inside with begins | later
    · have begins : place i <+: place j ++ [] := by rwa [List.append_nil,place,place]
      exact place_prefix_iff.mp begins
    -- The opening brace stands at the front of a place and nowhere else.
    · have opening := later.subset List.mem_cons_self
      simp only [List.mem_append,List.mem_cons,List.not_mem_nil,or_false] at opening
      rcases opening with digit | other
      · exact absurd (isDigit_of_mem_number digit) (by decide)
      · exact absurd other (by decide)
  · rintro rfl
    exact List.infix_refl (place i)

/-! Templates as parts: characters that are in no place, and places with such characters between them. -/

inductive Part where
  | char (c : Char)
  | place (index : Nat)
  deriving DecidableEq

def Part.text (texts : Nat → List Char) : Part → List Char
  | .char c => [c]
  | .place index => texts index

def render (texts : Nat → List Char) (parts : List Part) : List Char := parts.flatMap (Part.text texts)

/-- The parts of a template, all of whose places have numbers of one digit. -/
def parts : List Char → List Part
  | '\x7b' :: digit :: '\x7d' :: cs => .place (digit.toNat - '0'.toNat) :: parts cs
  | c :: cs => .char c :: parts cs
  | [] => []

def isSpaced : List Part → Bool
  | [] => true
  | .char c :: ps => isOutside c && isSpaced ps
  | .place _ :: ps => (match ps with | .place _ :: _ => false | _ => true) && isSpaced ps

theorem template_parts (code : DiagnosticCode) : isSpaced (parts code.template.toList) = true ∧
    code.template.toList = render place (parts code.template.toList) := by
  cases code <;> decide +kernel

section Rendered

variable {ps : List Part} (spaced : isSpaced ps = true)

include spaced

/-- A pass over a template goes on apart in what each of its places holds. -/
theorem substituteAll_render {marks : List (List Char × List Char)} (places : ∀ m ∈ marks, ∃ index, m.1 = place index)
    (texts : Nat → List Char) : substituteAll marks 0 (render texts ps) =
      render (fun index => substituteAll marks 0 (texts index)) ps := by
  have filled : ∀ m ∈ marks, m.1 ≠ [] := by
    intro m member
    obtain ⟨index,same⟩ := places m member
    exact same ▸ place_ne_nil index
  have apart : ∀ {c}, isOutside c = true → ∀ m ∈ marks, c ∉ m.1 := by
    intro c outside m member
    obtain ⟨index,same⟩ := places m member
    exact same ▸ not_mem_place outside index
  have split := fun {c} (outside : isOutside c = true) => substituteAll_split filled (apart outside)
  induction ps with
  | nil => rfl
  | cons part ps ih =>
    cases part with
    | char c =>
      obtain ⟨outside,later⟩ := (Bool.and_eq_true _ _).mp spaced
      have here := split outside [] (render texts ps)
      rw [ih later] at here
      exact here
    | place index =>
      obtain ⟨alone,later⟩ := (Bool.and_eq_true _ _).mp spaced
      match ps with
      | [] => simp [render,Part.text]
      | .place _ :: _ => cases alone
      | .char c :: ps =>
        obtain ⟨outside,_⟩ := (Bool.and_eq_true _ _).mp later
        have here := split outside (texts index) (render texts ps)
        have next := (split outside [] (render texts ps)).symm.trans (ih later)
        rw [show c :: substituteAll marks 0 (render texts ps) = _ from next] at here
        exact here

theorem fill_render (start : Nat) (texts : Nat → List Char) (args : List String) :
    fill start (render texts ps) args = render (fun index => fill start (texts index) args) ps := by
  induction args generalizing start texts with
  | nil => rfl
  | cons arg args ih =>
    have single : ∀ m ∈ [(place start,arg.toList)], ∃ index, m.1 = place index := by simp
    rw [fill,substitute_eq,substituteAll_render spaced single,ih]
    simp only [fill,substitute_eq]

end Rendered

/-- Filling leaves a place as it is until its argument comes, and then goes on in this argument. -/
theorem fill_place (start offset : Nat) (args : List String) : fill start (place (start + offset)) args =
    args[offset]?.elim (place (start + offset)) fun arg =>
      fill (start + offset + 1) arg.toList (args.drop (offset + 1)) := by
  induction args generalizing start offset with
  | nil => rfl
  | cons arg args ih =>
    cases offset with
    | zero =>
      have whole := substitute_begins (place_ne_nil start) arg.toList []
      rw [List.append_nil] at whole
      simp only [Nat.add_zero,fill,whole]
      simp [substitute]
    | succ offset =>
      have other : ¬ place start <:+: place (start + (offset + 1)) := by
        rw [place_infix_iff]
        omega
      have later := ih (start + 1) offset
      rw [show start + 1 + offset = start + (offset + 1) by omega] at later
      rw [fill,substitute_of_absent other,later]
      rfl

theorem fillAll_place (args : List String) (index : Nat) :
    fillAll args (place index) = args[index]?.elim (place index) String.toList := by
  unfold fillAll
  cases found : args[index]? with
  | none =>
    refine substituteAll_self fun m member inside => ?_
    obtain ⟨i,inRange,rfl⟩ := List.mem_mapIdx.mp member
    have := List.getElem?_eq_none_iff.mp found
    obtain rfl := place_infix_iff.mp inside
    omega
  | some arg =>
    obtain ⟨inRange,here⟩ := List.getElem?_eq_some_iff.mp found
    have first : (args.mapIdx fun index arg => (place index,arg.toList)).find? (·.1.isPrefixOf (place index ++ [])) =
        some (place index,arg.toList) := by
      refine List.find?_eq_some_iff_getElem.mpr ⟨?_,index,by simpa using inRange,by simp [here],fun i before => ?_⟩
      · exact List.isPrefixOf_iff_prefix.mpr (place_prefix_iff.mpr rfl)
      · rw [Bool.not_eq_true',Bool.eq_false_iff]
        intro begins
        rw [List.getElem_mapIdx,List.isPrefixOf_iff_prefix,place_prefix_iff] at begins
        omega
    have whole := substituteAll_begins (place_ne_nil index) [] first
    simpa [substituteAll] using whole

theorem settled_getElem? (args : List String) (index : Nat) : (settled args)[index]? =
    args[index]?.map fun arg => String.ofList (fill (index + 1) arg.toList (args.drop (index + 1))) := by
  simp [settled]

theorem fillAll_template (code : DiagnosticCode) (args : List String) : fillAll args code.template.toList =
    render (fun index => args[index]?.elim (place index) String.toList) (parts code.template.toList) := by
  obtain ⟨spaced,same⟩ := template_parts code
  have places : ∀ m ∈ args.mapIdx fun index arg => (place index,arg.toList), ∃ index, m.1 = place index := by
    intro m member
    obtain ⟨index,_,rfl⟩ := List.mem_mapIdx.mp member
    exact ⟨index,rfl⟩
  conv_lhs => rw [same]
  rw [fillAll,substituteAll_render spaced places]
  simp only [← fillAll_place]
  rfl

theorem fill_template (code : DiagnosticCode) (args : List String) :
    fill 0 code.template.toList args = fillAll (settled args) code.template.toList := by
  obtain ⟨spaced,same⟩ := template_parts code
  have filled : ∀ index, fill 0 (place index) args = (settled args)[index]?.elim (place index) String.toList := by
    intro index
    have here := fill_place 0 index args
    rw [Nat.zero_add] at here
    rw [here,settled_getElem?]
    cases args[index]? <;> simp
  rw [fillAll_template]
  conv_lhs => rw [same]
  rw [fill_render spaced]
  simp only [filled]

theorem fill_self {start : Nat} {args : List String} {text : List Char}
    (free : ∀ index, start ≤ index → index < start + args.length → ¬ place index <:+: text) :
    fill start text args = text := by
  induction args generalizing start with
  | nil => rfl
  | cons arg args ih =>
    rw [List.length_cons] at free
    rw [fill,substitute_of_absent (free start (Nat.le_refl start) (by omega))]
    exact ih fun index after before => free index (by omega) (by omega)

theorem settled_eq_self {args : List String} (free : ∀ i j arg, args[i]? = some arg → i < j → j < args.length →
    ¬ place j <:+: arg.toList) : settled args = args := by
  refine List.ext_getElem? fun i => ?_
  rw [settled_getElem?]
  cases found : args[i]? with
  | none => rfl
  | some arg =>
    have kept : fill (i + 1) arg.toList (args.drop (i + 1)) = arg.toList := by
      refine fill_self fun j after before => free i j arg found (by omega) ?_
      rw [List.length_drop] at before
      omega
    rw [Option.map_some,kept,String.ofList_toList]

theorem template_first (code : DiagnosticCode) :
    ∃ before after, parts code.template.toList = before ++ .place 0 :: after ∧ .place 0 ∉ before ++ after := by
  have once : (parts code.template.toList).count (.place 0) = 1 := by cases code <;> decide +kernel
  obtain ⟨before,after,split⟩ := List.append_of_mem (List.count_pos_iff.mp (once ▸ Nat.one_pos))
  refine ⟨before,after,split,?_⟩
  rw [split,List.count_append,List.count_cons_self] at once
  rw [← List.count_eq_zero,List.count_append]
  omega

theorem render_congr {texts texts' : Nat → List Char} {ps : List Part}
    (same : ∀ index, .place index ∈ ps → texts index = texts' index) : render texts ps = render texts' ps := by
  unfold render
  rw [List.flatMap_def,List.flatMap_def]
  congr 1
  refine List.map_congr_left fun part member => ?_
  cases part with
  | char c => rfl
  | place index => exact same index member

/-- A template holds its first place once, so a message tells what was put there. -/
theorem render_template_iff {code : DiagnosticCode} {texts texts' : Nat → List Char}
    (others : ∀ index, index ≠ 0 → texts index = texts' index) :
    render texts (parts code.template.toList) = render texts' (parts code.template.toList) ↔ texts 0 = texts' 0 := by
  obtain ⟨before,after,split,once⟩ := template_first code
  have apart : ∀ index, .place index ∈ before ++ after → texts index = texts' index := by
    intro index member
    refine others index ?_
    rintro rfl
    exact once member
  have front := render_congr fun index member => apart index (List.mem_append_left after member)
  have back := render_congr fun index member => apart index (List.mem_append_right before member)
  unfold render at front back ⊢
  simp only [split,List.flatMap_append,List.flatMap_cons,front,back,Part.text]
  rw [List.append_right_inj,List.append_left_inj]

/-- A message is its template with all places filled in one pass, by arguments whose own places have been filled by
the arguments after them. So it is the template with the arguments themselves as long as none of these holds the place
of a later one; with two arguments it is not just where the first holds the place of the second, which is another
text than this place. -/
theorem message_settled (code : DiagnosticCode) (args : List String) (location : Location) :
    (⟨code,args,location⟩ : Diagnostic).message = String.ofList (fillAll (settled args) code.template.toList) ∧
    ((∀ i j arg, args[i]? = some arg → i < j → j < args.length → ¬ place j <:+: arg.toList) →
      (⟨code,args,location⟩ : Diagnostic).message = String.ofList (fillAll args code.template.toList)) ∧
    ∀ first second, args = [first,second] →
      ((⟨code,args,location⟩ : Diagnostic).message = String.ofList (fillAll args code.template.toList) ↔
        ¬ place 1 <:+: first.toList ∨ second.toList = place 1) := by
  have whole : (⟨code,args,location⟩ : Diagnostic).message =
      String.ofList (fillAll (settled args) code.template.toList) := by
    rw [message,fill_template]
  refine ⟨whole,fun free => by rw [whole,settled_eq_self free],?_⟩
  rintro first second rfl
  rw [whole,String.ofList_inj,fillAll_template,fillAll_template,render_template_iff,
    ← substitute_eq_self_iff (place_ne_nil 1)]
  · simp [settled,fill]
  · intro index later
    rw [settled_getElem?]
    match index with
    | 0 => exact absurd rfl later
    | 1 => simp [fill]
    | index + 2 => simp

def braced : String := "icons/\x7b1\x7d.svg"

def unsupported : String :=
  "invalid asset name icons/\x7b1\x7d.svg: '\x7b1\x7d' contains unsupported character '\x7b'"

/-- A skipped file whose name is a place. Where the reason should follow the path, it stands inside the path as well. -/
theorem message_settled_braced :
    (assetSkipped ⟨braced⟩ unsupported).message ≠
      String.ofList (fillAll [braced,unsupported] DiagnosticCode.assetSkipped.template.toList) ∧
    (assetSkipped ⟨braced⟩ unsupported).message =
      "Asset 'icons/" ++ unsupported ++ ".svg' was skipped: " ++ unsupported ∧
    String.ofList (fillAll [braced,unsupported] DiagnosticCode.assetSkipped.template.toList) =
      "Asset 'icons/\x7b1\x7d.svg' was skipped: " ++ unsupported := by
  have settles := message_settled .assetSkipped [braced,unsupported] ⟨⟨braced⟩,1,1⟩
  have held : place 1 <:+: braced.toList := ⟨"icons/".toList,".svg".toList,by decide +kernel⟩
  have other : unsupported.toList ≠ place 1 := by decide +kernel
  refine ⟨fun same => ?_,?_,by decide +kernel⟩
  · rcases (settles.2.2 braced unsupported rfl).mp same with free | whole
    · exact free held
    · exact other whole
  · rw [assetSkipped,settles.1]
    decide +kernel

end InlineIcons.Diagnostic
