import InlineIcons.Markup.Event
import Mathlib.Data.List.TakeWhile

/-! Names of elements and attributes: a local part, alone or after a prefix. A name keeps clear of every
character that has a meaning in a tag, so a reader finds it again whatever stands around it. -/
namespace InlineIcons.Markup

/-- A character of XML names other than the colon. -/
def isNameChar (c : Char) : Bool :=
  let n := c.toNat
  c.isAlphanum || c = '_' || c = '-' || c = '.' || n = 0xB7 || (0xC0 ≤ n && n ≤ 0xD6) ||
    (0xD8 ≤ n && n ≤ 0xF6) || (0xF8 ≤ n && n ≤ 0x37D) || (0x37F ≤ n && n ≤ 0x1FFF) ||
    (0x200C ≤ n && n ≤ 0x200D) || (0x203F ≤ n && n ≤ 0x2040) || (0x2070 ≤ n && n ≤ 0x218F) ||
    (0x2C00 ≤ n && n ≤ 0x2FEF) || (0x3001 ≤ n && n ≤ 0xD7FF) || (0xF900 ≤ n && n ≤ 0xFDCF) ||
    (0xFDF0 ≤ n && n ≤ 0xFFFD) || (0x10000 ≤ n && n ≤ 0xEFFFF)

/-- What has a meaning of its own in a tag. -/
def marks : List Char := [' ','\t','\r','\n','"','\'','<','>','=','/','!','?','&',';',':']

theorem not_mem_marks {c : Char} (named : isNameChar c) : c ∉ marks := by
  intro mark
  have table : marks.all (!isNameChar ·) := by decide
  have clear := List.all_eq_true.mp table c mark
  simp [named] at clear

structure Name where
  chars : List Char
  filled : chars ≠ []
  named : chars.all isNameChar

theorem Name.isNameChar_of_mem (n : Name) {c : Char} (member : c ∈ n.chars) : isNameChar c :=
  List.all_eq_true.mp n.named c member

structure FullName where
  scope : Option Name
  own : Name

namespace FullName

def text (n : FullName) : List Char :=
  match n.scope with
  | none => n.own.chars
  | some scope => scope.chars ++ ':' :: n.own.chars

def bare (n : FullName) : FullName := ⟨none,n.own⟩

def xmlns : List Char := ['x','m','l','n','s']

/-- Whether an attribute of this name declares a namespace, the default one or one with a prefix. -/
def declares (n : FullName) : Bool :=
  match n.scope with
  | none => n.own.chars = xmlns
  | some scope => scope.chars = xmlns

@[simp] theorem text_bare (n : FullName) : n.bare.text = n.own.chars := rfl

theorem eq_colon_or_named {n : FullName} {c : Char} (member : c ∈ n.text) : c = ':' ∨ isNameChar c := by
  unfold text at member
  split at member
  · exact .inr (n.own.isNameChar_of_mem member)
  · next scope _ =>
    rcases List.mem_append.mp member with member | member
    · exact .inr (scope.isNameChar_of_mem member)
    · rcases List.mem_cons.mp member with rfl | member
      · exact .inl rfl
      · exact .inr (n.own.isNameChar_of_mem member)

theorem ne_mark {n : FullName} {c : Char} (member : c ∈ n.text) (mark : Char) (marked : mark ∈ marks)
    (other : mark ≠ ':') : c ≠ mark := by
  rintro rfl
  rcases eq_colon_or_named member with colon | named
  · exact other colon
  · exact not_mem_marks named marked

theorem isTagBlank_of_mem {n : FullName} {c : Char} (member : c ∈ n.text) : isTagBlank c = false := by
  simp [isTagBlank,ne_mark member ' ' (by decide) (by decide),
    ne_mark member '\t' (by decide) (by decide),
    ne_mark member '\r' (by decide) (by decide),
    ne_mark member '\n' (by decide) (by decide)]

theorem inKey_of_mem {n : FullName} {c : Char} (member : c ∈ n.text) : inKey c := by
  simp [inKey,isTagBlank_of_mem member,ne_mark member '=' (by decide) (by decide)]

theorem text_ne_nil (n : FullName) : n.text ≠ [] := by
  unfold text
  split
  · exact n.own.filled
  · simp

theorem exists_cons (n : FullName) : ∃ c cs, n.text = c :: cs := List.exists_cons_of_ne_nil n.text_ne_nil

theorem colon_not_mem (n : Name) : ':' ∉ n.chars :=
  fun member => not_mem_marks (n.isNameChar_of_mem member) (by decide)

theorem ne_colon (n : Name) : ∀ c ∈ n.chars, (c != ':') = true := by
  intro c member
  have other : c ≠ ':' := fun colon => colon_not_mem n (colon ▸ member)
  simpa using other

theorem localName_text (n : FullName) : localName n.text = n.own.chars := by
  unfold localName text
  cases n.scope with
  | none => simp [List.dropWhile_eq_nil_iff.mpr (ne_colon n.own)]
  | some scope => simp [List.dropWhile_append_of_pos (ne_colon scope)]

theorem isNamespaceKey_text (n : FullName) : isNamespaceKey n.text = n.declares := by
  rw [Bool.eq_iff_iff]
  have prefixed : isNamespaceKey n.text ↔ n.text = xmlns ∨ xmlns ++ [':'] <+: n.text := by
    simp [isNamespaceKey,xmlns]
  rw [prefixed]
  unfold text declares
  cases n.scope with
  | none =>
    have apart : ¬ xmlns ++ [':'] <+: n.own.chars := fun begins =>
      colon_not_mem n.own (begins.subset (by simp))
    simp [apart]
  | some scope =>
    have apart : scope.chars ++ ':' :: n.own.chars ≠ xmlns := fun same =>
      absurd (same ▸ List.mem_append_right _ List.mem_cons_self : ':' ∈ xmlns) (by decide)
    have cut : xmlns ++ [':'] <+: scope.chars ++ ':' :: n.own.chars ↔ scope.chars = xmlns := by
      constructor
      · rintro ⟨rest,whole⟩
        rw [List.append_assoc,List.singleton_append] at whole
        have heads := congrArg (List.takeWhile (· != ':')) whole
        rw [List.takeWhile_append_of_pos (by simp [xmlns]),
          List.takeWhile_append_of_pos (ne_colon scope)] at heads
        simpa using heads.symm
      · intro same
        exact ⟨n.own.chars,by simp [same]⟩
    simp [apart,cut]

end FullName
end InlineIcons.Markup
