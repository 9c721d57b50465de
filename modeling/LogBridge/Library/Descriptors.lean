import Mathlib.Data.List.Nodup
import Mathlib.Logic.Function.Basic

/-! Descriptor tables. A small number stands for a resource until it is closed and
may then be given out again. A ledger of holders shows that nothing is leaked and
that nothing is closed twice, even where a number is reused. -/

/-- The table of a process, every resource that was opened, and what each call of
`close` has found. -/
structure Descriptors (Resource : Type) where
  table : Nat → Option Resource := fun _ => none
  opened : List Resource := []
  closed : List (Option Resource) := []

namespace Descriptors
variable {Resource : Type} {descriptors : Descriptors Resource} {holders others : List Nat} {fd : Nat}

def openAt (descriptors : Descriptors Resource) (fd : Nat) (resource : Resource) :
    Descriptors Resource where
  table := Function.update descriptors.table fd (some resource)
  opened := descriptors.opened ++ [resource]
  closed := descriptors.closed

def close (descriptors : Descriptors Resource) (fd : Nat) : Descriptors Resource where
  table := Function.update descriptors.table fd none
  opened := descriptors.opened
  closed := descriptors.closed ++ [descriptors.table fd]

@[simp] theorem openAt_table_self (resource : Resource) :
    (descriptors.openAt fd resource).table fd = some resource :=
  Function.update_self ..

theorem openAt_table_of_ne {other : Nat} (resource : Resource) (h : other ≠ fd) :
    (descriptors.openAt fd resource).table other = descriptors.table other :=
  Function.update_of_ne h ..

@[simp] theorem close_table_self : (descriptors.close fd).table fd = none :=
  Function.update_self ..

theorem close_table_of_ne {other : Nat} (h : other ≠ fd) :
    (descriptors.close fd).table other = descriptors.table other :=
  Function.update_of_ne h ..

/-- What a descriptor refers to stays so, unless it is closed. -/
theorem close_table (other : Nat) :
    (descriptors.close fd).table other = descriptors.table other ∨
      (descriptors.close fd).table other = none := by
  by_cases h : other = fd
  · subst h
    exact Or.inr close_table_self
  · exact Or.inl (close_table_of_ne h)

/-- Every open descriptor has one holder, and every opened resource has either been
closed once or is held. -/
structure Held (descriptors : Descriptors Resource) (holders : List Nat) : Prop where
  count_eq : ∀ fd, holders.count fd = (descriptors.table fd).isSome.toNat
  accounted : List.Perm (descriptors.closed ++ holders.map descriptors.table)
    (descriptors.opened.map some)

theorem held_empty : Held ({} : Descriptors Resource) [] where
  count_eq _ := rfl
  accounted := List.Perm.refl _

/-- A descriptor may pass from one holder to another. -/
theorem Held.pass (h : Held descriptors holders) (hCount : ∀ fd, others.count fd = holders.count fd) :
    Held descriptors others where
  count_eq fd := (hCount fd).trans (h.count_eq fd)
  accounted :=
    ((List.perm_iff_count.mpr hCount).map descriptors.table).append_left _ |>.trans h.accounted

theorem Held.nodup (h : Held descriptors holders) : holders.Nodup := by
  refine List.nodup_iff_count_le_one.mpr ?_
  intro fd
  rw [h.count_eq]
  exact Bool.toNat_le _

theorem Held.disjoint {first second : List Nat} (h : Held descriptors (first ++ second))
    (hMem : fd ∈ first) : fd ∉ second := by
  intro hOther
  exact (List.nodup_append.mp h.nodup).2.2 fd hMem fd hOther rfl

theorem Held.isSome (h : Held descriptors holders) (hMem : fd ∈ holders) :
    (descriptors.table fd).isSome = true := by
  have hPositive := List.count_pos_iff.mpr hMem
  rw [h.count_eq] at hPositive
  cases hSome : (descriptors.table fd).isSome with
  | true => rfl
  | false =>
      rw [hSome] at hPositive
      exact absurd hPositive (Nat.lt_irrefl 0)

theorem Held.not_mem (h : Held descriptors holders) (hFree : descriptors.table fd = none) :
    fd ∉ holders := by
  intro hMem
  have hSome := h.isSome hMem
  rw [hFree] at hSome
  cases hSome

/-- An unused number is given out, and the caller holds it. -/
theorem Held.openAt (h : Held descriptors holders) (hFree : descriptors.table fd = none)
    (resource : Resource) : Held (descriptors.openAt fd resource) (fd :: holders) where
  count_eq other := by
    by_cases hSame : other = fd
    · subst hSame
      rw [List.count_cons_self, List.count_eq_zero.mpr (h.not_mem hFree), openAt_table_self]
      rfl
    · rw [List.count_cons_of_ne (Ne.symm hSame), openAt_table_of_ne resource hSame]
      exact h.count_eq other
  accounted := by
    have hKept : holders.map (descriptors.openAt fd resource).table = holders.map descriptors.table := by
      refine List.map_congr_left ?_
      intro other hMem
      exact openAt_table_of_ne resource fun hSame => h.not_mem hFree (hSame ▸ hMem)
    rw [List.map_cons, openAt_table_self, hKept]
    change List.Perm (descriptors.closed ++ some resource :: holders.map descriptors.table)
      ((descriptors.opened ++ [resource]).map some)
    rw [List.map_append]
    exact List.perm_middle.trans ((h.accounted.cons _).trans (List.perm_append_singleton _ _).symm)

/-- A holder closes its descriptor and holds nothing more. -/
theorem Held.close (h : Held descriptors holders)
    (hCount : ∀ other, holders.count other = others.count other + if other = fd then 1 else 0) :
    Held (descriptors.close fd) others := by
  have hWhole : Held descriptors (fd :: others) := by
    refine h.pass ?_
    intro other
    rw [hCount]
    by_cases hSame : other = fd
    · rw [if_pos hSame, hSame, List.count_cons_self]
    · rw [if_neg hSame, List.count_cons_of_ne (Ne.symm hSame), Nat.add_zero]
  have hAbsent : fd ∉ others := (List.nodup_cons.mp hWhole.nodup).1
  constructor
  · intro other
    by_cases hSame : other = fd
    · subst hSame
      rw [close_table_self, List.count_eq_zero.mpr hAbsent]
      rfl
    · rw [close_table_of_ne hSame, ← hWhole.count_eq, List.count_cons_of_ne (Ne.symm hSame)]
  · have hKept : others.map (descriptors.close fd).table = others.map descriptors.table := by
      refine List.map_congr_left ?_
      intro other hMem
      exact close_table_of_ne fun hSame => hAbsent (hSame ▸ hMem)
    rw [hKept]
    change List.Perm (descriptors.closed ++ [descriptors.table fd] ++ others.map descriptors.table)
      (descriptors.opened.map some)
    rw [List.append_assoc, List.singleton_append]
    exact hWhole.accounted

/-- Every `close` has found a resource, and none was found twice. -/
theorem Held.closed_once (h : Held descriptors holders) (hOpened : descriptors.opened.Nodup) :
    descriptors.closed.Nodup ∧ none ∉ descriptors.closed := by
  have hAll := h.accounted.nodup_iff.mpr (hOpened.map fun _ _ => Option.some.inj)
  refine ⟨(List.nodup_append.mp hAll).1, ?_⟩
  intro hMem
  have hSome := h.accounted.subset (List.mem_append_left _ hMem)
  simp at hSome

/-- With no holder left, nothing is open and everything was closed. -/
theorem Held.all_closed (h : Held descriptors []) :
    (∀ fd, descriptors.table fd = none) ∧
      List.Perm descriptors.closed (descriptors.opened.map some) := by
  constructor
  · intro fd
    have hNone := h.count_eq fd
    cases hTable : descriptors.table fd with
    | none => rfl
    | some resource =>
        rw [hTable] at hNone
        cases hNone
  · have hAll := h.accounted
    rwa [List.map_nil, List.append_nil] at hAll

end Descriptors
