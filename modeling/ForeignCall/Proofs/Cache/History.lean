import ForeignCall.Cache

/-!
# Histories of a cache

What the entries of a cache did, one event for every step taken on it. A cache reflects its history
if an invoker is found under a key exactly if it was given out for that key and no clear has
followed. From this alone it follows which gets share an invoker: those of one key with no clear
between them. Each single access keeps it, so it holds however the accesses of several gets follow
each other.
-/

namespace ForeignCall.Cache

/-- What a step did to the entries. -/
inductive Event where
  /-- A get was given its invoker, found there or newly entered. -/
  | gave (key : CacheKey) (shared : Shared Invoker)
  /-- A get ended because its signature does not compile. -/
  | refused (key : CacheKey) (failure : Failure)
  /-- The entries were dropped. -/
  | cleared
  /-- A step of a get that does not settle it. -/
  | silent

variable {σ α : Type} {c c' : Cache} {h : List Event} {e : Event} {key : CacheKey}
  {shared : Shared Invoker} {i j : Nat}

/-! ### Runs -/

/-- The events of a run of steps and the state at its end. -/
def trace (step : σ → α → Event × σ) (start : σ) (xs : List α) : List Event × σ :=
  xs.foldl (fun run x ↦ (run.1 ++ [(step run.2 x).1], (step run.2 x).2)) ([], start)

/-- What holds at the start of a run and is kept by each step holds at its end. -/
theorem trace_induct {step : σ → α → Event × σ} {start : σ}
    {P : List α → List Event → σ → Prop} (hstart : P [] [] start)
    (hstep : ∀ xs h s x, P xs h s → P (xs ++ [x]) (h ++ [(step s x).1]) (step s x).2)
    (xs : List α) : P xs (trace step start xs).1 (trace step start xs).2 := by
  have hrun : ∀ (ys xs : List α) (run : List Event × σ), P xs run.1 run.2 →
      P (xs ++ ys)
        (ys.foldl (fun run x ↦ (run.1 ++ [(step run.2 x).1], (step run.2 x).2)) run).1
        (ys.foldl (fun run x ↦ (run.1 ++ [(step run.2 x).1], (step run.2 x).2)) run).2 := by
    intro ys
    induction ys with
    | nil =>
      intro xs run hrun
      simpa using hrun
    | cons y ys ih =>
      intro xs run hrun
      have hnext := ih (xs ++ [y]) (run.1 ++ [(step run.2 y).1], (step run.2 y).2)
        (hstep xs run.1 run.2 y hrun)
      rwa [List.append_assoc] at hnext
  exact hrun xs [] ([], start) hstart

/-! ### Places -/

/-- What is at a place of a list that was extended: what was there, or the new last element. -/
theorem getElem?_concat_eq_some_iff {xs : List α} {x y : α} {i : Nat} :
    (xs ++ [x])[i]? = some y ↔ xs[i]? = some y ∨ i = xs.length ∧ x = y := by
  rcases Nat.lt_trichotomy i xs.length with hlt | rfl | hgt
  · rw [List.getElem?_append_left hlt]
    simp [Nat.ne_of_lt hlt]
  · rw [List.getElem?_concat_length]
    simp
  · have hlength : (xs ++ [x]).length ≤ i := by
      rw [List.length_append, List.length_singleton]
      exact hgt
    rw [List.getElem?_eq_none hlength, List.getElem?_eq_none (Nat.le_of_lt hgt)]
    simp [Nat.ne_of_gt hgt]

/-- No clear at the places between two places. -/
def Undisturbed (h : List Event) (i j : Nat) : Prop :=
  ∀ m, i < m → m < j → h[m]? ≠ some .cleared

/-- Events that are added do not count for the places there were. -/
theorem undisturbed_concat_iff (hj : j ≤ h.length) :
    Undisturbed (h ++ [e]) i j ↔ Undisturbed h i j := by
  apply forall_congr'
  intro m
  apply imp_congr_right
  intro _
  apply imp_congr_right
  intro hm
  rw [List.getElem?_append_left (by omega)]

/-- What was given out was given out before or just now. -/
theorem gave_mem_concat_iff :
    .gave key shared ∈ h ++ [e] ↔ .gave key shared ∈ h ∨ e = .gave key shared := by
  rw [List.mem_append, List.mem_singleton, @eq_comm _ e]

/-- An invoker was given out for a key and no clear has followed. -/
def Stands (h : List Event) (key : CacheKey) (shared : Shared Invoker) : Prop :=
  ∃ i, h[i]? = some (.gave key shared) ∧ Undisturbed h i h.length

/-- What stands was given out. -/
theorem Stands.mem (hs : Stands h key shared) : .gave key shared ∈ h := by
  obtain ⟨i, hi, -⟩ := hs
  exact List.mem_of_getElem? hi

/-- An invoker stands if it was given out just now, or stood before and no clear followed. -/
theorem stands_concat_iff : Stands (h ++ [e]) key shared ↔
    e = .gave key shared ∨ e ≠ .cleared ∧ Stands h key shared := by
  have hlength : (h ++ [e]).length = h.length + 1 := by simp
  constructor
  · rintro ⟨i, hi, hundisturbed⟩
    rw [hlength] at hundisturbed
    rcases getElem?_concat_eq_some_iff.mp hi with hi | ⟨-, he⟩
    · have hlt : i < h.length := (List.getElem?_eq_some_iff.mp hi).1
      have hlast : e ≠ .cleared := by
        simpa using hundisturbed h.length hlt (Nat.lt_succ_self _)
      refine .inr ⟨hlast, i, hi, fun m him hm hcleared ↦ ?_⟩
      exact hundisturbed m him (Nat.lt_succ_of_lt hm)
        (getElem?_concat_eq_some_iff.mpr (.inl hcleared))
    · exact .inl he
  · rintro (rfl | ⟨hne, i, hi, hundisturbed⟩)
    · refine ⟨h.length, List.getElem?_concat_length, fun m hm hm' ↦ ?_⟩
      omega
    · refine ⟨i, getElem?_concat_eq_some_iff.mpr (.inl hi), fun m him hm hcleared ↦ ?_⟩
      rcases getElem?_concat_eq_some_iff.mp hcleared with hcleared | ⟨-, he⟩
      · exact hundisturbed m him (List.getElem?_eq_some_iff.mp hcleared).1 hcleared
      · exact hne he

/-- Of two gets that were given an invoker, both were given the same exactly if their keys are
equal and there is no clear between them. -/
def SharesByKey (h : List Event) : Prop :=
  ∀ i j k₁ k₂ s₁ s₂, i < j → h[i]? = some (.gave k₁ s₁) → h[j]? = some (.gave k₂ s₂) →
    (s₁.identity = s₂.identity ↔ k₁ = k₂ ∧ Undisturbed h i j)

/-- Sharing by key is kept if the last get shares by key with those before it. -/
theorem SharesByKey.concat (hs : SharesByKey h)
    (hlast : ∀ i k₁ k₂ s₁ s₂, e = .gave k₂ s₂ → h[i]? = some (.gave k₁ s₁) →
      (s₁.identity = s₂.identity ↔ k₁ = k₂ ∧ Undisturbed h i h.length)) :
    SharesByKey (h ++ [e]) := by
  intro i j k₁ k₂ s₁ s₂ hij hi hj
  have hi : h[i]? = some (.gave k₁ s₁) := by
    have hjlt := (List.getElem?_eq_some_iff.mp hj).1
    rw [List.length_append, List.length_singleton] at hjlt
    rwa [List.getElem?_append_left (by omega)] at hi
  rcases getElem?_concat_eq_some_iff.mp hj with hj | ⟨rfl, he⟩
  · rw [undisturbed_concat_iff (Nat.le_of_lt (List.getElem?_eq_some_iff.mp hj).1)]
    exact hs i j k₁ k₂ s₁ s₂ hij hi hj
  · rw [undisturbed_concat_iff (Nat.le_refl _)]
    exact hlast i k₁ k₂ s₁ s₂ he hi

/-- A get that is given what stands shares by key with those before it. -/
theorem SharesByKey.concat_of_stands (hs : SharesByKey h) (hstands : Stands h key shared) :
    SharesByKey (h ++ [.gave key shared]) := by
  apply hs.concat
  rintro i k₁ k₂ s₁ s₂ he hi
  cases he
  -- The invoker was given out at `m`, and from there on nothing was cleared.
  obtain ⟨m, hm, hundisturbed⟩ := hstands
  rcases Nat.lt_trichotomy i m with him | rfl | hmi
  · rw [hs i m k₁ key s₁ shared him hi hm]
    apply and_congr_right
    intro _
    constructor
    · intro hbefore n hin hn
      rcases Nat.lt_trichotomy n m with hnm | rfl | hmn
      · exact hbefore n hin hnm
      · simp [hm]
      · exact hundisturbed n hmn hn
    · intro hall n hin hnm
      exact hall n hin (Nat.lt_trans hnm (List.getElem?_eq_some_iff.mp hm).1)
  · rw [hm] at hi
    cases hi
    simp [hundisturbed]
  · have hshare := hs m i key k₁ shared s₁ hmi hm hi
    have hilt : i < h.length := (List.getElem?_eq_some_iff.mp hi).1
    have hmiddle : Undisturbed h m i := fun n hmn hni ↦
      hundisturbed n hmn (Nat.lt_trans hni hilt)
    have hlate : Undisturbed h i h.length := fun n hin hn ↦
      hundisturbed n (Nat.lt_trans hmi hin) hn
    rw [eq_comm, hshare]
    simp [hmiddle, hlate, eq_comm]

/-- A get that is given a new invoker, where none stands for its key, shares with none. -/
theorem SharesByKey.concat_of_new (hs : SharesByKey h)
    (hfresh : ∀ k s, .gave k s ∈ h → s.identity ≠ shared.identity)
    (hnone : ∀ s, ¬ Stands h key s) : SharesByKey (h ++ [.gave key shared]) := by
  apply hs.concat
  rintro i k₁ k₂ s₁ s₂ he hi
  cases he
  constructor
  · intro hidentity
    exact absurd hidentity (hfresh k₁ s₁ (List.mem_of_getElem? hi))
  · rintro ⟨rfl, hundisturbed⟩
    exact absurd ⟨i, hi, hundisturbed⟩ (hnone s₁)

/-! ### Caches that reflect their history -/

/-- The entries are what a history left behind. -/
structure Reflects (c : Cache) (h : List Event) : Prop where
  /-- An invoker is found exactly if it was given out and no clear has followed. -/
  lookup_iff : ∀ key s, c.lookup key = some s ↔ Stands h key s
  /-- The invokers given out are those of their keys. -/
  compile : ∀ key s, .gave key s ∈ h → key.compile = .ok s.value
  /-- Identities given out are not issued again. -/
  issued : ∀ key s, .gave key s ∈ h → s.identity < c.issued
  shares : SharesByKey h

namespace Reflects

/-- The empty cache reflects the empty history. -/
theorem start : Reflects empty [] where
  lookup_iff key s := by simp [lookup_empty, Stands]
  compile := by simp
  issued := by simp
  shares := by simp [SharesByKey]

/-- What a cache finds is compiled from its key. -/
theorem compile_of_lookup (hr : Reflects c h) (hl : c.lookup key = some shared) :
    key.compile = .ok shared.value :=
  hr.compile key shared ((hr.lookup_iff key shared).mp hl).mem

/-- Counting and issuing identities leave the entries as they are. -/
theorem of_entries_eq (hr : Reflects c h) (hentries : c'.entries = c.entries)
    (hissued : c.issued ≤ c'.issued) : Reflects c' h where
  lookup_iff key s := by
    rw [← hr.lookup_iff key s]
    simp only [lookup, hentries]
  compile := hr.compile
  issued key s hs := Nat.lt_of_lt_of_le (hr.issued key s hs) hissued
  shares := hr.shares

/-- A step that gives nothing out and clears nothing. -/
theorem quiet (hr : Reflects c h) (hgave : ∀ key s, e ≠ .gave key s) (hcleared : e ≠ .cleared) :
    Reflects c (h ++ [e]) where
  lookup_iff key s := by
    rw [stands_concat_iff, hr.lookup_iff]
    simp [hgave key s, hcleared]
  compile key s hs := by
    rw [gave_mem_concat_iff, or_iff_left (hgave key s)] at hs
    exact hr.compile key s hs
  issued key s hs := by
    rw [gave_mem_concat_iff, or_iff_left (hgave key s)] at hs
    exact hr.issued key s hs
  shares := hr.shares.concat fun _ _ k₂ _ s₂ he _ ↦ absurd he (hgave k₂ s₂)

/-- A step that gives out what is then found under its key, all else being found as before. -/
theorem give (hr : Reflects c h)
    (hlookup : ∀ k s, c'.lookup k = some s ↔ k = key ∧ s = shared ∨ c.lookup k = some s)
    (hissued : c.issued ≤ c'.issued) (hcompile : key.compile = .ok shared.value)
    (hidentity : shared.identity < c'.issued) (hshares : SharesByKey (h ++ [.gave key shared])) :
    Reflects c' (h ++ [.gave key shared]) where
  lookup_iff k s := by
    rw [hlookup, stands_concat_iff, hr.lookup_iff]
    simp [eq_comm]
  compile k s hs := by
    rcases gave_mem_concat_iff.mp hs with hs | hs
    · exact hr.compile k s hs
    · cases hs
      exact hcompile
  issued k s hs := by
    rcases gave_mem_concat_iff.mp hs with hs | hs
    · exact Nat.lt_of_lt_of_le (hr.issued k s hs) hissued
    · cases hs
      exact hidentity
  shares := hshares

/-- A get that finds an invoker is given it. -/
theorem hit (hr : Reflects c h) (hl : c.lookup key = some shared) :
    Reflects c (h ++ [.gave key shared]) := by
  have hstands : Stands h key shared := (hr.lookup_iff key shared).mp hl
  refine hr.give ?_ (Nat.le_refl _) (hr.compile_of_lookup hl) (hr.issued key shared hstands.mem)
    (hr.shares.concat_of_stands hstands)
  intro k s
  constructor
  · exact .inr
  · rintro (⟨rfl, rfl⟩ | hk)
    · exact hl
    · exact hk

/-- A get that compiled its signature is given what the insertion leaves under its key: the
invoker another get was faster with, or its own. -/
theorem insertIfAbsent (hr : Reflects c h) (hcompile : key.compile = .ok shared.value)
    (hidentity : shared.identity < c.issued)
    (hfresh : ∀ k s, .gave k s ∈ h → s.identity ≠ shared.identity) :
    Reflects (c.insertIfAbsent key shared).2
      (h ++ [.gave key (c.insertIfAbsent key shared).1]) := by
  cases hl : c.lookup key with
  | some present =>
    rw [insertIfAbsent_of_some hl]
    exact hr.hit hl
  | none =>
    have hnone : ∀ s, ¬ Stands h key s := fun s hs ↦ by
      rw [← hr.lookup_iff, hl] at hs
      cases hs
    have hlookup := c.lookup_insertIfAbsent key
    simp only [insertIfAbsent_of_none hl] at hlookup ⊢
    refine hr.give ?_ (Nat.le_refl _) hcompile hidentity (hr.shares.concat_of_new hfresh hnone)
    intro k s
    rw [hlookup]
    split
    · next hk => simp [hk, hl, eq_comm]
    · next hk => simp [hk]

/-- After a clear nothing stands. -/
theorem clear (hr : Reflects c h) : Reflects c.clear (h ++ [.cleared]) where
  lookup_iff key s := by simp [lookup_clear, stands_concat_iff]
  compile key s hs := by
    rw [gave_mem_concat_iff] at hs
    exact hr.compile key s (by simpa using hs)
  issued key s hs := by
    rw [gave_mem_concat_iff] at hs
    exact hr.issued key s (by simpa using hs)
  shares := hr.shares.concat (by simp)

end Reflects

end ForeignCall.Cache
