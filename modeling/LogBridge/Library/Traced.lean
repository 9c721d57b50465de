import Mathlib.Tactic.Common

/-! Computations that may fail and that record events on the way, whether or not
they fail. The result alone is the plain computation. What a computation records
and what its events add up to is proved along its structure. -/
universe u

/-- A computation with its events in order and its result. -/
structure Traced (ω ε : Type) (α : Type u) where
  events : List ω
  result : Except ε α

namespace Traced
variable {ω ε : Type} {α β : Type u}

instance : Monad (Traced ω ε) where
  pure value := ⟨[], .ok value⟩
  bind first next :=
    match first.result with
    | .ok value => ⟨first.events ++ (next value).events, (next value).result⟩
    | .error error => ⟨first.events, .error error⟩

/-- Record one event. -/
def emit (event : ω) : Traced ω ε PUnit := ⟨[event], .ok ⟨⟩⟩

/-- A computation without events. -/
def lift (plain : Except ε α) : Traced ω ε α := ⟨[], plain⟩

/-! The plain computation. -/

@[simp] theorem result_pure (value : α) : (pure value : Traced ω ε α).result = .ok value := rfl

@[simp] theorem result_emit (event : ω) : (emit event : Traced ω ε PUnit).result = .ok ⟨⟩ := rfl

@[simp] theorem result_lift (plain : Except ε α) : (lift plain : Traced ω ε α).result = plain := rfl

@[simp] theorem result_bind (first : Traced ω ε α) (next : α → Traced ω ε β) :
    (first >>= next).result = first.result >>= fun value => (next value).result := by
  change (match first.result with
    | .ok value => ⟨first.events ++ (next value).events, (next value).result⟩
    | .error error => ⟨first.events, .error error⟩ : Traced ω ε β).result = _
  cases first.result with
  | ok value => rfl
  | error error => rfl

theorem result_foldlM {ι : Type} (step : α → ι → Traced ω ε α) (items : List ι) (start : α) :
    (items.foldlM step start).result =
      items.foldlM (fun value item => (step value item).result) start := by
  induction items generalizing start with
  | nil => rfl
  | cons item rest ih =>
      rw [List.foldlM_cons, List.foldlM_cons, result_bind]
      congr 1
      funext value
      exact ih value

/-! Events. -/

variable {allowed : ω → Prop} {failure : ε → Prop} {weight : ω → Nat} {limit : Nat}
  {first program : Traced ω ε α} {returned : α → Nat → Prop}

/-- The weight of all events. -/
def total (weight : ω → Nat) : List ω → Nat
  | [] => 0
  | event :: rest => weight event + total weight rest

theorem total_append (first rest : List ω) :
    total weight (first ++ rest) = total weight first + total weight rest := by
  induction first with
  | nil => rw [List.nil_append, total, Nat.zero_add]
  | cons event first ih => rw [List.cons_append, total, total, ih, Nat.add_assoc]

/-- All events are allowed; the weight of the events is related to a returned
value, and within the limit together with one of the listed failures. -/
structure Within (allowed : ω → Prop) (failure : ε → Prop) (weight : ω → Nat) (limit : Nat)
    (program : Traced ω ε α) (returned : α → Nat → Prop) : Prop where
  allowed : ∀ event ∈ program.events, allowed event
  returned : ∀ value, program.result = .ok value → returned value (total weight program.events)
  failed : ∀ error, program.result = .error error →
    failure error ∧ total weight program.events ≤ limit

theorem Within.mono {stronger : α → Nat → Prop}
    (h : Within allowed failure weight limit program stronger)
    (hReturned : ∀ value used, stronger value used → returned value used) :
    Within allowed failure weight limit program returned :=
  ⟨h.allowed, fun value hValue => hReturned value _ (h.returned value hValue), h.failed⟩

theorem Within.of_limit_le {smaller : Nat}
    (h : Within allowed failure weight smaller program returned) (hLe : smaller ≤ limit) :
    Within allowed failure weight limit program returned :=
  ⟨h.allowed, h.returned, fun error hError =>
    ⟨(h.failed error hError).1, Nat.le_trans (h.failed error hError).2 hLe⟩⟩

/-- The returned value is the result of the plain computation. -/
theorem Within.with_result (h : Within allowed failure weight limit program returned) :
    Within allowed failure weight limit program
      (fun value used => returned value used ∧ program.result = .ok value) :=
  ⟨h.allowed, fun value hValue => ⟨h.returned value hValue, hValue⟩, h.failed⟩

theorem Within.pure {value : α} (h : returned value 0) :
    Within allowed failure weight limit (pure value : Traced ω ε α) returned := by
  refine ⟨fun _ hMem => absurd hMem List.not_mem_nil, ?_, ?_⟩
  · intro other hValue
    cases hValue
    exact h
  · intro _ hError
    cases hError

theorem Within.emit {event : ω} {returned : PUnit → Nat → Prop} (hAllowed : allowed event)
    (h : returned ⟨⟩ (weight event)) :
    Within allowed failure weight limit (emit event : Traced ω ε PUnit) returned := by
  refine ⟨?_, ?_, ?_⟩
  · intro other hMem
    rw [List.mem_singleton.mp hMem]
    exact hAllowed
  · intro _ _
    simpa [total, Traced.emit] using h
  · intro _ hError
    cases hError

theorem Within.lift {plain : Except ε α} (hReturned : ∀ value, plain = .ok value → returned value 0)
    (hFailed : ∀ error, plain = .error error → failure error) :
    Within allowed failure weight limit (lift plain : Traced ω ε α) returned :=
  ⟨fun _ hMem => absurd hMem List.not_mem_nil, hReturned,
    fun error hError => ⟨hFailed error hError, Nat.zero_le _⟩⟩

/-- A sequence: what the first part has used is missing in the limit of the rest. -/
theorem Within.bind {next : α → Traced ω ε β} {returned : β → Nat → Prop}
    (h : Within allowed failure weight limit first fun value used =>
      used ≤ limit ∧ Within allowed failure weight (limit - used) (next value)
        fun result more => returned result (used + more)) :
    Within allowed failure weight limit (first >>= next) returned := by
  have hBind : first >>= next = match first.result with
    | .ok value => ⟨first.events ++ (next value).events, (next value).result⟩
    | .error error => ⟨first.events, .error error⟩ := rfl
  rw [hBind]
  cases hFirst : first.result with
  | error error =>
      refine ⟨h.allowed, ?_, ?_⟩
      · intro _ hValue
        cases hValue
      · intro other hError
        cases hError
        exact h.failed error hFirst
  | ok value =>
      obtain ⟨hUsed, hNext⟩ := h.returned value hFirst
      have hTotal : total weight (first.events ++ (next value).events) =
          total weight first.events + total weight (next value).events := total_append ..
      refine ⟨?_, ?_, ?_⟩
      · intro event hMem
        rcases List.mem_append.mp hMem with hOld | hNew
        · exact h.allowed event hOld
        · exact hNext.allowed event hNew
      · intro result hResult
        dsimp only
        rw [hTotal]
        exact hNext.returned result hResult
      · intro error hError
        obtain ⟨hFailure, hMore⟩ := hNext.failed error hError
        refine ⟨hFailure, ?_⟩
        dsimp only
        rw [hTotal]
        omega

/-- A sequence whose first part uses nothing. -/
theorem Within.bind_free {next : α → Traced ω ε β} {good : α → Prop} {returned : β → Nat → Prop}
    (h : Within allowed failure weight limit first fun value used => used = 0 ∧ good value)
    (hNext : ∀ value, good value → Within allowed failure weight limit (next value) returned) :
    Within allowed failure weight limit (first >>= next) returned := by
  apply Within.bind
  apply h.mono
  rintro value used ⟨rfl, hGood⟩
  refine ⟨Nat.zero_le _, ?_⟩
  apply (hNext value hGood).mono
  intro result more hResult
  rwa [Nat.zero_add]

/-- A loop whose rounds use nothing uses nothing. -/
theorem Within.foldlM {ι : Type} {step : α → ι → Traced ω ε α} {items : List ι} {start : α}
    (h : ∀ value, ∀ item ∈ items,
      Within allowed failure weight limit (step value item) fun _ used => used = 0) :
    Within allowed failure weight limit (items.foldlM step start) fun _ used => used = 0 := by
  induction items generalizing start with
  | nil => exact Within.pure rfl
  | cons item rest ih =>
      rw [List.foldlM_cons]
      have hItem : Within allowed failure weight limit (step start item)
          fun _ used => used = 0 ∧ True :=
        (h start item (List.mem_cons_self ..)).mono fun _ _ hUsed => ⟨hUsed, trivial⟩
      apply Within.bind_free hItem
      intro value _
      exact ih fun value other hMem => h value other (List.mem_cons_of_mem _ hMem)

end Traced
