import InlineIcons.Proofs.Identifier
import Mathlib.Data.List.TakeWhile

/-! Where words end. The kinds of a word's own characters and at most two characters behind it say that it ends
there, and cutting finds that word; so the words of an identifier are the one way to part it. -/
namespace InlineIcons.Identifier

/-- A word and what stands behind it. -/
inductive EndsAt : List Char → List Char → Prop
  | small {w rest : List Char} (filled : w ≠ []) (inside : ∀ c ∈ w, c.isLower)
      (stops : ∀ c ∈ rest.head?, c.isLower = false) : EndsAt w rest
  | digits {w rest : List Char} (filled : w ≠ []) (inside : ∀ c ∈ w, c.isDigit)
      (stops : ∀ c ∈ rest.head?, c.isDigit = false) : EndsAt w rest
  | titled {c : Char} {cs rest : List Char} (capital : c.isUpper) (filled : cs ≠ []) (inside : ∀ d ∈ cs, d.isLower)
      (stops : ∀ d ∈ rest.head?, d.isLower = false) : EndsAt (c :: cs) rest
  | capitals {w rest : List Char} (filled : w ≠ []) (inside : ∀ c ∈ w, c.isUpper)
      (stops : ∀ c ∈ rest.head?, c.isUpper = false ∧ c.isLower = false) : EndsAt w rest
  /-- The last capital of a run begins the next word. -/
  | beforeTitle {w rest : List Char} {c d : Char} (filled : w ≠ []) (inside : ∀ c ∈ w, c.isUpper) (capital : c.isUpper)
      (small : d.isLower) : EndsAt w (c :: d :: rest)

theorem apart_of_isLower {c : Char} (small : c.isLower) : c.isUpper = false ∧ c.isDigit = false :=
  Stem.forall_isAlphanum (p := fun c => c.isLower → c.isUpper = false ∧ c.isDigit = false) (by decide)
    (by simp [Char.isAlphanum,Stem.isAlpha_eq,small]) small

theorem apart_of_isUpper {c : Char} (capital : c.isUpper) : c.isLower = false ∧ c.isDigit = false :=
  Stem.forall_isAlphanum (p := fun c => c.isUpper → c.isLower = false ∧ c.isDigit = false) (by decide)
    (by simp [Char.isAlphanum,Stem.isAlpha_eq,capital]) capital

theorem apart_of_isDigit {c : Char} (digit : c.isDigit) : c.isLower = false ∧ c.isUpper = false :=
  Stem.forall_isAlphanum (p := fun c => c.isDigit → c.isLower = false ∧ c.isUpper = false) (by decide)
    (by simp [Char.isAlphanum,digit]) digit

section Runs

variable {kind : Char → Bool} {run rest : List Char}

theorem takeWhile_run (inside : ∀ c ∈ run, kind c) (stops : ∀ c ∈ rest.head?, kind c = false) :
    (run ++ rest).takeWhile kind = run := by
  cases rest with
  | nil => simpa [List.takeWhile_eq_self_iff] using inside
  | cons c rest => simp [List.takeWhile_append_of_pos inside,stops c rfl]

theorem dropWhile_run (inside : ∀ c ∈ run, kind c) (stops : ∀ c ∈ rest.head?, kind c = false) :
    (run ++ rest).dropWhile kind = rest := by
  cases rest with
  | nil => simpa [List.dropWhile_eq_nil_iff] using inside
  | cons c rest => simp [List.dropWhile_append_of_pos inside,stops c rfl]

theorem forall_cons_takeWhile {c : Char} (first : kind c) (cs : List Char) : ∀ d ∈ c :: cs.takeWhile kind, kind d :=
  List.forall_mem_cons.mpr ⟨first,fun _ => List.mem_takeWhile_imp⟩

theorem stops_dropWhile (kind : Char → Bool) (cs : List Char) : ∀ c ∈ (cs.dropWhile kind).head?, kind c = false := by
  intro c first
  have := List.head?_dropWhile_not kind cs
  rw [Option.mem_def.mp first] at this
  simpa using this

end Runs

section Word

variable {cs w rest : List Char}

theorem cut_last (c : Char) (cs : List Char) (last : Char) : (c :: (cs ++ [last])).dropLast = c :: cs ∧
    (c :: (cs ++ [last])).drop ((c :: (cs ++ [last])).length - 1) = [last] := by
  rw [← List.cons_append,List.dropLast_concat]
  simp

/-- A run of capitals before a small letter is cut before its last one. -/
theorem endsAt_dropLast {c d : Char} {more behind : List Char} (several : more ≠ [])
    (inside : ∀ e ∈ c :: more, e.isUpper) (small : d.isLower) :
    (c :: more).dropLast ++ ((c :: more).drop ((c :: more).length - 1) ++ d :: behind) = c :: (more ++ d :: behind) ∧
      EndsAt (c :: more).dropLast ((c :: more).drop ((c :: more).length - 1) ++ d :: behind) := by
  obtain ⟨before,last,rfl⟩ := (List.eq_nil_or_concat more).resolve_left several
  rw [List.concat_eq_append] at inside ⊢
  rw [(cut_last c before last).1,(cut_last c before last).2]
  refine ⟨by simp,.beforeTitle (List.cons_ne_nil _ _) (fun e member => inside e ?_) (inside last (by simp)) small⟩
  rw [← List.cons_append]
  exact List.mem_append_left _ member

/-- What is cut off is a word that ends there, and nothing is lost. -/
theorem endsAt_of_word? (found : word? cs = some (w,rest)) : w ++ rest = cs ∧ EndsAt w rest := by
  cases cs with
  | nil => simp [word?] at found
  | cons c cs =>
    simp only [word?] at found
    split at found
    · next small =>
      obtain ⟨rfl,rfl⟩ := Prod.mk.inj (Option.some.inj found)
      exact ⟨by simp,.small (List.cons_ne_nil _ _) (forall_cons_takeWhile small cs) (stops_dropWhile Char.isLower cs)⟩
    split at found
    · next digit =>
      obtain ⟨rfl,rfl⟩ := Prod.mk.inj (Option.some.inj found)
      exact ⟨by simp,.digits (List.cons_ne_nil _ _) (forall_cons_takeWhile digit cs) (stops_dropWhile Char.isDigit cs)⟩
    split at found
    · next capital =>
      have whole := List.takeWhile_append_dropWhile (p := Char.isUpper) (l := cs)
      have inside := forall_cons_takeWhile capital cs
      have stops := stops_dropWhile Char.isUpper cs
      generalize cs.takeWhile Char.isUpper = more at found whole inside
      generalize cs.dropWhile Char.isUpper = behind at found whole stops
      subst whole
      split at found
      · next followed =>
        obtain ⟨d,first,small⟩ := Option.any_eq_true _ _ |>.mp followed
        obtain ⟨behind,rfl⟩ := List.head?_eq_some_iff.mp first
        split at found
        · next single =>
          obtain rfl : more = [] := by simpa using single
          obtain ⟨rfl,rfl⟩ := Prod.mk.inj (Option.some.inj found)
          refine ⟨by simp,.titled capital ?_ (fun e => List.mem_takeWhile_imp) (stops_dropWhile Char.isLower _)⟩
          simp [small]
        · next several =>
          obtain ⟨rfl,rfl⟩ := Prod.mk.inj (Option.some.inj found)
          exact endsAt_dropLast (by simpa using several) inside small
      · next apart =>
        obtain ⟨rfl,rfl⟩ := Prod.mk.inj (Option.some.inj found)
        refine ⟨by simp,.capitals (List.cons_ne_nil _ _) inside fun d first => ⟨stops d first,?_⟩⟩
        simpa [Option.mem_def.mp first] using apart
    · cases found

theorem word?_of_endsAt (ends : EndsAt w rest) : word? (w ++ rest) = some (w,rest) := by
  cases ends with
  | small filled inside stops =>
    obtain ⟨c,cs,rfl⟩ := List.exists_cons_of_ne_nil filled
    obtain ⟨first,others⟩ := List.forall_mem_cons.mp inside
    simp [word?,first,takeWhile_run others stops,dropWhile_run others stops]
  | digits filled inside stops =>
    obtain ⟨c,cs,rfl⟩ := List.exists_cons_of_ne_nil filled
    obtain ⟨first,others⟩ := List.forall_mem_cons.mp inside
    simp [word?,first,apart_of_isDigit first,takeWhile_run others stops,dropWhile_run others stops]
  | @titled c cs _ capital filled inside stops =>
    obtain ⟨d,ds,rfl⟩ := List.exists_cons_of_ne_nil filled
    have small : d.isLower := inside d List.mem_cons_self
    have others := (List.forall_mem_cons.mp inside).2
    simp [word?,capital,apart_of_isUpper capital,small,apart_of_isLower small,takeWhile_run others stops,
      dropWhile_run others stops]
  | capitals filled inside stops =>
    obtain ⟨c,cs,rfl⟩ := List.exists_cons_of_ne_nil filled
    obtain ⟨first,others⟩ := List.forall_mem_cons.mp inside
    have ends : ∀ d ∈ rest.head?, d.isUpper = false := fun d last => (stops d last).1
    have apart : rest.head?.any Char.isLower = false := by
      simpa [Option.any_eq_false] using fun d last => (stops d last).2
    simp [word?,first,apart_of_isUpper first,takeWhile_run others ends,dropWhile_run others ends,apart]
  | @beforeTitle w rest c d filled inside capital small =>
    obtain ⟨e,es,rfl⟩ := List.exists_cons_of_ne_nil filled
    obtain ⟨first,others⟩ := List.forall_mem_cons.mp inside
    have run : ∀ f ∈ es ++ [c], f.isUpper := by
      intro f member
      rcases List.mem_append.mp member with member | member
      · exact others f member
      · exact List.mem_singleton.mp member ▸ capital
    have stops : ∀ f ∈ (d :: rest).head?, f.isUpper = false := by simp [apart_of_isLower small]
    have whole : es ++ c :: d :: rest = (es ++ [c]) ++ d :: rest := by simp
    rw [List.cons_append,whole,word?,takeWhile_run run stops,dropWhile_run run stops]
    simp only [first,apart_of_isUpper first,cut_last]
    simp [small]

theorem exists_word? {c : Char} (letter : c.isAlphanum) (cs : List Char) :
    ∃ w rest, word? (c :: cs) = some (w,rest) := by
  simp only [Char.isAlphanum,Stem.isAlpha_eq,Bool.or_eq_true] at letter
  simp only [word?]
  split
  · exact ⟨_,_,rfl⟩
  split
  · exact ⟨_,_,rfl⟩
  split
  · split
    · split <;> exact ⟨_,_,rfl⟩
    · exact ⟨_,_,rfl⟩
  · next other capital => simp_all

end Word

/-- Words each of which ends where the next one begins. -/
inductive Parted : List (List Char) → Prop
  | nil : Parted []
  | cons {w : List Char} {ws : List (List Char)} (ends : EndsAt w ws.flatten) (others : Parted ws) : Parted (w :: ws)

theorem EndsAt.filled {w rest : List Char} (ends : EndsAt w rest) : w ≠ [] := by
  cases ends with
  | titled => exact List.cons_ne_nil _ _
  | small filled => exact filled
  | digits filled => exact filled
  | capitals filled => exact filled
  | beforeTitle filled => exact filled

theorem parted_of_words? {cs : List Char} {ws : List (List Char)} (found : words? cs = some ws) :
    ws.flatten = cs ∧ Parted ws := by
  fun_induction words? cs generalizing ws with
  | case1 =>
    obtain rfl := Option.some.inj found
    exact ⟨rfl,.nil⟩
  | case2 => cases found
  | case3 c rest w left first ih =>
    obtain ⟨more,later,rfl⟩ := Option.map_eq_some_iff.mp found
    obtain ⟨whole,ends⟩ := endsAt_of_word? first
    obtain ⟨rfl,parted⟩ := ih later
    exact ⟨whole,.cons ends parted⟩

theorem words?_of_parted {ws : List (List Char)} (parted : Parted ws) : words? ws.flatten = some ws := by
  induction parted with
  | nil => simp [words?]
  | @cons w ws ends _ ih =>
    have first := word?_of_endsAt ends
    obtain ⟨c,cs,rfl⟩ := List.exists_cons_of_ne_nil ends.filled
    rw [List.flatten_cons,List.cons_append] at *
    rw [words?]
    split
    · next fails => simp [fails] at first
    · next w' left found =>
      obtain ⟨rfl,rfl⟩ := Prod.mk.inj (Option.some.inj (found.symm.trans first))
      simp [ih]

/-- The words of an identifier are the one way to part it. -/
theorem words?_eq_some_iff {cs : List Char} {ws : List (List Char)} :
    words? cs = some ws ↔ ws.flatten = cs ∧ Parted ws := by
  constructor
  · exact parted_of_words?
  · rintro ⟨rfl,parted⟩
    exact words?_of_parted parted

end InlineIcons.Identifier
