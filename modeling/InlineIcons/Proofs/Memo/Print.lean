import InlineIcons.Memo
import Mathlib.Data.List.Nodup

/-! What decides on reuse is the fingerprint that a table has for a key. A stage leaves the fingerprints of its own
items, so which items of a later stage are reused does not depend on what was there before. -/
namespace InlineIcons.Memo

variable {κ ι α : Type} [DecidableEq κ]

def print? (m : Memo κ α) (key : κ) : Option Fingerprint := (m.find? key).map MemoEntry.fingerprint

@[simp] theorem print?_empty (key : κ) : (empty : Memo κ α).print? key = none := rfl

theorem isSome_fresh? (m : Memo κ α) (key : κ) (print : Fingerprint) :
    (m.fresh? key print).isSome = decide (m.print? key = some print) := by
  unfold fresh? print?
  cases m.find? key with
  | none => rfl
  | some e => by_cases same : e.fingerprint = print <;> simp [same]

theorem print?_insert (m : Memo κ α) (key : κ) (print : Fingerprint) (value : α) (key' : κ) :
    (m.insert key print value).print? key' = if key = key' then some print else m.print? key' := by
  unfold print? find? insert
  by_cases here : key = key'
  · simp [here]
  · have others : (m.entries.filter (·.key ≠ key)).find? (·.key = key') = m.entries.find? (·.key = key') := by
      rw [List.find?_filter]
      refine congrArg (m.entries.find? ·) (funext fun e => ?_)
      by_cases there : e.key = key' <;> simp [there,Ne.symm here]
    rw [List.find?_cons_of_neg (by simpa using here),others,if_neg here]

theorem print?_retain (m : Memo κ α) (keys : List κ) (key : κ) :
    (m.retain keys).print? key = if key ∈ keys then m.print? key else none := by
  unfold print? find? retain
  have cut : (m.entries.filter (·.key ∈ keys)).find? (·.key = key) =
      m.entries.find? fun e => key ∈ keys ∧ e.key = key := by
    rw [List.find?_filter]
    refine congrArg (m.entries.find? ·) (funext fun e => ?_)
    by_cases there : e.key = key <;> simp [there]
  rw [cut]
  by_cases kept : key ∈ keys <;> simp [kept]

theorem print?_foldl_insert (compute : ι → α) {work : List (Item κ ι)} (distinct : (work.map Item.key).Nodup)
    (m : Memo κ α) (key : κ) :
    (work.foldl (fun t i => t.insert i.key i.fingerprint (compute i.input)) m).print? key =
      ((work.find? (·.key = key)).map Item.fingerprint).or (m.print? key) := by
  induction work generalizing m with
  | nil => simp
  | cons i work ih =>
    obtain ⟨alone,distinct⟩ := List.nodup_cons.mp distinct
    rw [List.foldl_cons,ih distinct,print?_insert]
    by_cases here : i.key = key
    · have gone : work.find? (·.key = key) = none := by
        refine List.find?_eq_none.mpr fun j member same => alone ?_
        exact List.mem_map.mpr ⟨j,member,by simpa [here] using same⟩
      simp [here,gone]
    · simp [here]

/-- A stage leaves the fingerprints of its items, whatever the table held before, and no others. -/
theorem print?_stage (m : Memo κ α) (compute : ι → α) {items : List (Item κ ι)}
    (distinct : (items.map Item.key).Nodup) (key : κ) (print : Fingerprint) :
    (m.stage compute items).2.1.print? key = some print ↔ ∃ i ∈ items, i.key = key ∧ i.fingerprint = print := by
  have some_of_mem : ∀ i ∈ items, (m.stage compute items).2.1.print? i.key = some i.fingerprint := by
    intro i member
    have work : ((m.stale items).map Item.key).Nodup := distinct.sublist (List.filter_sublist.map Item.key)
    simp only [stage]
    rw [print?_retain,if_pos (List.mem_map_of_mem member),print?_foldl_insert compute work]
    cases found : (m.stale items).find? (·.key = i.key) with
    | some j =>
      have same : j.key = i.key := by simpa using List.find?_some found
      have inside := (List.mem_filter.mp (List.mem_of_find?_eq_some found)).1
      rw [List.inj_on_of_nodup_map distinct inside member same]
      rfl
    | none =>
      have reused : i ∉ m.stale items := fun stale => by simpa using List.find?_eq_none.mp found i stale
      have fresh : (m.fresh? i.key i.fingerprint).isSome := by
        rw [Option.isSome_iff_ne_none]
        simpa [stale,member] using reused
      rw [isSome_fresh?] at fresh
      simpa using fresh
  constructor
  · intro remembered
    have kept : key ∈ items.map Item.key := by
      by_contra dropped
      simp [stage,print?_retain,dropped] at remembered
    obtain ⟨i,member,rfl⟩ := List.mem_map.mp kept
    exact ⟨i,member,rfl,Option.some.inj ((some_of_mem i member).symm.trans remembered)⟩
  · rintro ⟨i,member,rfl,rfl⟩
    exact some_of_mem i member

end InlineIcons.Memo

namespace InlineIcons.MemoStats

def count {α : Type} (as : List α) (reused : α → Bool) : MemoStats := ⟨as.countP reused,as.countP (!reused ·)⟩

theorem count_total {α : Type} (as : List α) (reused : α → Bool) :
    (count as reused).reused + (count as reused).computed = as.length :=
  by simpa [count] using (List.length_eq_countP_add_countP reused).symm

theorem count_map {α β : Type} (f : α → β) (as : List α) (reused : β → Bool) :
    count (as.map f) reused = count as (reused ∘ f) := by
  simp only [count,List.countP_map]
  rfl

theorem count_congr {α : Type} {as : List α} {reused reused' : α → Bool}
    (same : ∀ a ∈ as, reused a = reused' a) : count as reused = count as reused' := by
  have first : as.countP reused = as.countP reused' := List.countP_congr fun a member => by rw [same a member]
  have second : as.countP (!reused ·) = as.countP (!reused' ·) :=
    List.countP_congr fun a member => by rw [same a member]
  rw [count,count,first,second]

/-- A stage reuses the items whose fingerprint the table has. -/
theorem stage_eq {κ ι α : Type} [DecidableEq κ] (m : Memo κ α) (compute : ι → α) (items : List (Memo.Item κ ι)) :
    (m.stage compute items).2.2 = count items fun i => m.print? i.key = some i.fingerprint := by
  have stale : (m.stale items).length = items.countP fun i => !decide (m.print? i.key = some i.fingerprint) := by
    rw [Memo.stale,← List.countP_eq_length_filter]
    refine List.countP_congr fun i _ => ?_
    rw [← Memo.isSome_fresh?,Option.not_isSome]
  have whole := count_total items fun i => m.print? i.key = some i.fingerprint
  simp only [Memo.stage,count,stale] at whole ⊢
  congr 1
  omega

end InlineIcons.MemoStats
