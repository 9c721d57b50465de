import Mathlib.Data.List.Induction
import Mathlib.Order.Lattice

/-! Duplicate suppression by a single number. A receiver keeps the largest key
it has seen and emits only the items above it. Batches may be resent, overlap
or arrive out of order. -/
namespace Watermark
variable {α κ : Type} [LinearOrder κ]

/-- The emitted items, oldest first, and the largest key seen. -/
structure Receiver (α κ : Type) where
  emitted : List α
  watermark : κ

/-- Keys grow along the list. -/
abbrev Increasing (key : α → κ) (items : List α) : Prop :=
  items.Pairwise fun first second => key first < key second

/-- The largest key of a batch, or the bound from below when it is larger. -/
def highest (key : α → κ) (bound : κ) (items : List α) : κ :=
  items.foldl (fun largest item => max largest (key item)) bound

def receive (key : α → κ) (receiver : Receiver α κ) (batch : List α) : Receiver α κ where
  emitted := receiver.emitted ++ batch.filter fun item => receiver.watermark < key item
  watermark := highest key receiver.watermark batch

def receiveAll (key : α → κ) (receiver : Receiver α κ) (batches : List (List α)) : Receiver α κ :=
  batches.foldl (receive key) receiver

variable {key : α → κ} {bound : κ} {items batch : List α} {receiver : Receiver α κ}

@[simp] theorem highest_nil : highest key bound [] = bound := rfl

@[simp] theorem highest_cons (item : α) (rest : List α) :
    highest key bound (item :: rest) = highest key (max bound (key item)) rest := rfl

theorem highest_append (first second : List α) :
    highest key bound (first ++ second) = highest key (highest key bound first) second := by
  simp [highest]

theorem highest_le_iff {limit : κ} :
    highest key bound items ≤ limit ↔ bound ≤ limit ∧ ∀ item ∈ items, key item ≤ limit := by
  induction items generalizing bound with
  | nil => simp
  | cons item rest ih => simp [ih, and_assoc]

theorem highest_lt_iff {limit : κ} :
    highest key bound items < limit ↔ bound < limit ∧ ∀ item ∈ items, key item < limit := by
  induction items generalizing bound with
  | nil => simp
  | cons item rest ih => simp [ih, and_assoc]

/-- Items that are not above the bound do not count. -/
theorem highest_filter {below : κ} (h : below ≤ bound) :
    highest key bound (items.filter fun item => below < key item) = highest key bound items := by
  induction items generalizing bound with
  | nil => rfl
  | cons item rest ih =>
      by_cases hAbove : below < key item
      · rw [List.filter_cons_of_pos (by simpa using hAbove)]
        exact ih (h.trans (le_max_left ..))
      · rw [List.filter_cons_of_neg (by simpa using hAbove), ih h, highest_cons,
          max_eq_left ((not_lt.mp hAbove).trans h)]

theorem le_highest (key : α → κ) (bound : κ) (items : List α) :
    bound ≤ highest key bound items ∧ ∀ item ∈ items, key item ≤ highest key bound items :=
  highest_le_iff.mp (le_refl _)

/-- In a batch with increasing keys the last key is the largest. -/
theorem highest_concat {last : α} (h : Increasing key (items ++ [last])) :
    highest key bound (items ++ [last]) = max bound (key last) := by
  obtain ⟨_, _, hLast⟩ := List.pairwise_append.mp h
  apply le_antisymm
  · rw [highest_le_iff]
    refine ⟨le_max_left .., fun item hMem => ?_⟩
    rcases List.mem_append.mp hMem with hMem | hMem
    · exact (hLast item hMem last (List.mem_singleton_self _)).le.trans (le_max_right ..)
    · rw [List.mem_singleton.mp hMem]
      exact le_max_right ..
  · have hAll := le_highest key bound (items ++ [last])
    exact max_le hAll.1 (hAll.2 last (by simp))

/-- The items above a bound are the last ones. -/
theorem above_suffix (h : Increasing key items) (bound : κ) :
    (items.filter fun item => bound < key item) <:+ items := by
  induction items with
  | nil => exact List.suffix_rfl
  | cons first rest ih =>
      obtain ⟨hFirst, hRest⟩ := List.pairwise_cons.mp h
      by_cases hAbove : bound < key first
      · have hAll : ∀ item ∈ first :: rest, bound < key item :=
          List.forall_mem_cons.mpr ⟨hAbove, fun item hMem => hAbove.trans (hFirst item hMem)⟩
        have hSelf := List.filter_eq_self.mpr fun item hMem => decide_eq_true (hAll item hMem)
        exact ⟨[], hSelf⟩
      · rw [List.filter_cons_of_neg (by simpa using hAbove)]
        exact (ih hRest).trans (List.suffix_cons first rest)

/-- The items above the last item of the first part are the second part. -/
theorem above_getLast {first second : List α} {last : α} (h : Increasing key (first ++ second))
    (hLast : first.getLast? = some last) :
    ((first ++ second).filter fun item => key last < key item) = second := by
  obtain ⟨init, rfl⟩ := List.getLast?_eq_some_iff.mp hLast
  obtain ⟨hFirst, _, hSecond⟩ := List.pairwise_append.mp h
  have hNone : ∀ item ∈ init ++ [last], ¬key last < key item := by
    intro item hMem
    rcases List.mem_append.mp hMem with hInit | hEnd
    · exact ((List.pairwise_append.mp hFirst).2.2 item hInit last (by simp)).le.not_gt
    · rw [List.mem_singleton.mp hEnd]
      exact lt_irrefl _
  rw [List.filter_append, List.filter_eq_nil_iff.mpr (by simpa using hNone), List.nil_append,
    List.filter_eq_self]
  intro item hMem
  exact decide_eq_true (hSecond last (by simp) item hMem)

theorem receiveAll_concat (batches : List (List α)) :
    receiveAll key receiver (batches ++ [batch]) =
      receive key (receiveAll key receiver batches) batch := by
  simp [receiveAll]

/-- The watermark is the largest key of everything received. -/
theorem watermark_receiveAll (batches : List (List α)) :
    (receiveAll key receiver batches).watermark =
      highest key receiver.watermark batches.flatten := by
  induction batches using List.reverseRecOn with
  | nil => rfl
  | append_singleton batches batch ih =>
      rw [receiveAll_concat, receive, ih, List.flatten_append, highest_append]
      simp

/-- What has been emitted is increasing and not above the watermark. -/
structure Sound (key : α → κ) (receiver : Receiver α κ) : Prop where
  increasing : Increasing key receiver.emitted
  below : ∀ item ∈ receiver.emitted, key item ≤ receiver.watermark

theorem Sound.receive (h : Sound key receiver) (hBatch : Increasing key batch) :
    Sound key (receive key receiver batch) := by
  have hHighest := le_highest key receiver.watermark batch
  constructor
  · refine List.pairwise_append.mpr ⟨h.increasing, hBatch.sublist List.filter_sublist, ?_⟩
    intro old hOld new hNew
    exact (h.below old hOld).trans_lt (by simpa using (List.mem_filter.mp hNew).2)
  · intro item hMem
    rcases List.mem_append.mp hMem with hMem | hMem
    · exact (h.below item hMem).trans hHighest.1
    · exact hHighest.2 item (List.mem_filter.mp hMem).1

theorem Sound.receiveAll {batches : List (List α)} (h : Sound key receiver)
    (hBatches : ∀ batch ∈ batches, Increasing key batch) :
    Sound key (receiveAll key receiver batches) := by
  induction batches using List.reverseRecOn with
  | nil => exact h
  | append_singleton batches batch ih =>
      rw [receiveAll_concat]
      exact (ih fun other hMem => hBatches other (by simp [hMem])).receive
        (hBatches batch (by simp))

/-- The watermark is the largest emitted key. -/
def Exact (key : α → κ) (bound : κ) (receiver : Receiver α κ) : Prop :=
  receiver.watermark = highest key bound receiver.emitted

theorem Exact.receive (h : Exact key bound receiver) (batch : List α) :
    Exact key bound (receive key receiver batch) := by
  change highest key receiver.watermark batch = highest key bound (receiver.emitted ++ _)
  rw [highest_append, ← h, highest_filter (le_refl _)]

/-- A relation that holds along each class of items holds along the list for
the items of one class. -/
theorem pairwise_of_classes {γ : Type} [DecidableEq γ] {relation : α → α → Prop} (group : α → γ)
    (h : ∀ value, (items.filter fun item => group item = value).Pairwise relation) :
    items.Pairwise fun first second => group first = group second → relation first second := by
  induction items with
  | nil => exact List.Pairwise.nil
  | cons first rest ih =>
      rw [List.pairwise_cons]
      constructor
      · intro second hMem hSame
        have hClass := h (group first)
        rw [List.filter_cons_of_pos (by simp), List.pairwise_cons] at hClass
        exact hClass.1 second (List.mem_filter.mpr ⟨hMem, by simp [hSame]⟩)
      · exact ih fun value => (h value).sublist ((List.sublist_cons_self first rest).filter _)

/-! One sequence of items is sent, in which the keys of each class of items grow.
What has been emitted is a prefix of it, and a batch is a segment of it that does
not start behind the emitted items. -/

section Ordered
variable {γ : Type} [DecidableEq γ] {group : α → γ} {value : γ}
  {sent emitted before after : List α}

/-- The largest emitted key of a class. -/
abbrev reached (group : α → γ) (key : α → κ) (bound : κ) (value : γ) (emitted : List α) : κ :=
  highest key bound (emitted.filter fun item => group item = value)

/-- A later item of a class is above the watermark of the class. -/
theorem reached_lt {rest : List α} {item : α}
    (hOrder : (emitted ++ rest).Pairwise fun first second =>
      group first = group second → key first < key second)
    (hMem : item ∈ rest) (hGroup : group item = value) (hBound : bound < key item) :
    reached group key bound value emitted < key item := by
  refine highest_lt_iff.mpr ⟨hBound, fun other hOther => ?_⟩
  obtain ⟨hOther, hSame⟩ := List.mem_filter.mp hOther
  exact (List.pairwise_append.mp hOrder).2.2 other hOther item hMem
    ((of_decide_eq_true hSame).trans hGroup.symm)

/-- Emitting the items of the batch above the watermark continues the prefix. -/
theorem emitted_prefix
    (hOrder : sent.Pairwise fun first second => group first = group second → key first < key second)
    (hEmitted : emitted <+: sent) (hBatch : before ++ batch ++ after = sent)
    (hBefore : before <+: emitted) (hGroup : ∀ item ∈ batch, group item = value)
    (hBound : ∀ item ∈ batch, bound < key item) :
    emitted ++ batch.filter (fun item => reached group key bound value emitted < key item) <+: sent := by
  have hSeen : ∀ item ∈ batch, item ∈ emitted → ¬reached group key bound value emitted < key item := by
    intro item hMem hOld
    have hClass : item ∈ emitted.filter fun item => group item = value :=
      List.mem_filter.mpr ⟨hOld, decide_eq_true (hGroup item hMem)⟩
    exact ((le_highest key bound _).2 item hClass).not_gt
  rcases List.prefix_or_prefix_of_prefix ⟨after, hBatch⟩ hEmitted with hAll | hPart
  · have hNone : batch.filter (fun item => reached group key bound value emitted < key item) = [] := by
      rw [List.filter_eq_nil_iff]
      intro item hMem
      simpa using hSeen item hMem (hAll.subset (List.mem_append_right _ hMem))
    rwa [hNone, List.append_nil]
  · -- the batch is cut where the emitted items end
    obtain ⟨seen, rfl⟩ := hBefore
    rw [List.prefix_append_right_inj] at hPart
    obtain ⟨fresh, rfl⟩ := hPart
    have hOld : (seen.filter fun item =>
        reached group key bound value (before ++ seen) < key item) = [] := by
      rw [List.filter_eq_nil_iff]
      intro item hMem
      simpa using hSeen item (List.mem_append_left _ hMem) (List.mem_append_right _ hMem)
    have hNew : (fresh.filter fun item =>
        reached group key bound value (before ++ seen) < key item) = fresh := by
      rw [List.filter_eq_self]
      intro item hMem
      rw [← hBatch, ← List.append_assoc, List.append_assoc] at hOrder
      have hIn := List.mem_append_right seen hMem
      exact decide_eq_true (reached_lt hOrder (List.mem_append_left _ hMem) (hGroup item hIn)
        (hBound item hIn))
    rw [List.filter_append, hOld, hNew, List.nil_append]
    exact ⟨after, by rw [← hBatch]; simp⟩

/-- When the watermark has reached the last item of a batch, the whole batch is emitted. -/
theorem batch_emitted {last : α}
    (hOrder : sent.Pairwise fun first second => group first = group second → key first < key second)
    (hEmitted : emitted <+: sent) (hBatch : before ++ batch ++ after = sent)
    (hLast : batch.getLast? = some last) (hGroup : group last = value) (hBound : bound < key last)
    (hReached : key last ≤ reached group key bound value emitted) : before ++ batch <+: emitted := by
  rcases List.prefix_or_prefix_of_prefix ⟨after, hBatch⟩ hEmitted with hAll | hPart
  · exact hAll
  · obtain ⟨init, rfl⟩ := List.getLast?_eq_some_iff.mp hLast
    rw [← List.append_assoc] at hPart hBatch ⊢
    rcases List.prefix_concat_iff.mp hPart with hSame | ⟨rest, hShort⟩
    · exact ⟨[], (List.append_nil _).trans hSame.symm⟩
    · -- otherwise the last item is still to come, above the watermark
      rw [← hBatch, ← hShort, List.append_assoc, List.append_assoc] at hOrder
      have hMem : last ∈ rest ++ ([last] ++ after) := by simp
      exact absurd hReached (reached_lt hOrder hMem hGroup hBound).not_ge

end Ordered

end Watermark
