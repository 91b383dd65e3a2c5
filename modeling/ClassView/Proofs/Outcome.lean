import ClassView.DecodeError
import Mathlib.Data.List.Forall2

/-!
# Outcomes in a row

Look-ups and printers answer an `Outcome` and are put one behind the other: the first that fails
decides. `Outcome.FailsOnly` bounds the faults that such a row can end with, and
`Outcome.Succeeds` says that it ends with none.

* `bind_eq_ok_iff`, `bind_eq_error_iff`, `map_eq_ok_iff`: one outcome behind another;
* **`FailsOnly.bind`**, **`FailsOnly.mapM`**: what bounds the faults of the parts bounds those of
  the row;
* `succeeds_bind_iff`, `succeeds_mapM_iff`: a row succeeds exactly if all its parts do;
* `mapM_eq_ok_iff`: what a row of look-ups answers;
* `check`: whether there is a value, and if not why;
* **`forM_eq_error_iff`**: a row of checks fails as the first of them that fails;
* `Within`: a value wherever another outcome has one, related to it; `Within.bind`, `Within.mapM`.
-/

namespace ClassView.Outcome

variable {α β : Type} {x : Outcome α} {next : α → Outcome β} {e : DecodeError}

/-! ## 1. One outcome behind another -/

theorem bind_eq_ok_iff {b : β} :
    (x >>= next) = .ok b ↔ ∃ a, x = .ok a ∧ next a = .ok b := by
  cases x with
  | error e => exact ⟨fun h => (nomatch h), fun ⟨_, h, _⟩ => (nomatch h)⟩
  | ok a =>
    refine ⟨fun h => ⟨a, rfl, h⟩, fun h => ?_⟩
    obtain ⟨a', ha, hb⟩ := h
    cases ha
    exact hb

theorem bind_eq_error_iff :
    (x >>= next) = .error e ↔ x = .error e ∨ ∃ a, x = .ok a ∧ next a = .error e := by
  cases x with
  | error e' =>
    refine ⟨fun h => .inl (congrArg Except.error (Except.error.inj h)), fun h => ?_⟩
    rcases h with h | ⟨_, h, _⟩
    · exact congrArg Except.error (Except.error.inj h)
    · exact nomatch h
  | ok a =>
    refine ⟨fun h => .inr ⟨a, rfl, h⟩, fun h => ?_⟩
    rcases h with h | ⟨a', ha, h⟩
    · exact nomatch h
    · cases ha
      exact h

theorem map_eq_ok_iff {f : α → β} {b : β} : f <$> x = .ok b ↔ ∃ a, x = .ok a ∧ f a = b := by
  cases x with
  | error e => exact ⟨fun h => (nomatch h), fun ⟨_, h, _⟩ => (nomatch h)⟩
  | ok a =>
    refine ⟨fun h => ⟨a, rfl, Except.ok.inj h⟩, fun h => ?_⟩
    obtain ⟨a', ha, hb⟩ := h
    cases ha
    exact congrArg Except.ok hb

theorem map_eq_error_iff {f : α → β} : f <$> x = .error e ↔ x = .error e := by
  cases x with
  | error e' => exact ⟨fun h => congrArg Except.error (Except.error.inj h), fun h => h ▸ rfl⟩
  | ok a => exact ⟨fun h => (nomatch h), fun h => (nomatch h)⟩

/-! ## 2. Bounds on the faults -/

/-- The outcome is a value. -/
def Succeeds (x : Outcome α) : Prop := ∃ a, x = .ok a

instance : Decidable (Succeeds x) :=
  match x with
  | .ok a => isTrue ⟨a, rfl⟩
  | .error _ => isFalse fun h => nomatch h

/-- If there is no value, the fault is one of these. -/
def FailsOnly (faults : DecodeError → Prop) (x : Outcome α) : Prop :=
  ∀ e, x = .error e → faults e

theorem Succeeds.map {f : α → β} (h : Succeeds x) : Succeeds (f <$> x) := by
  obtain ⟨a, ha⟩ := h
  exact ⟨f a, map_eq_ok_iff.2 ⟨a, ha, rfl⟩⟩

theorem Succeeds.of_map {f : α → β} (h : Succeeds (f <$> x)) : Succeeds x := by
  obtain ⟨b, hb⟩ := h
  obtain ⟨a, ha, _⟩ := map_eq_ok_iff.1 hb
  exact ⟨a, ha⟩

theorem Succeeds.bind (h : Succeeds x) (hnext : ∀ a, Succeeds (next a)) :
    Succeeds (x >>= next) := by
  obtain ⟨a, ha⟩ := h
  obtain ⟨b, hb⟩ := hnext a
  exact ⟨b, bind_eq_ok_iff.2 ⟨a, ha, hb⟩⟩

/-- Two outcomes in a row succeed only if both do. -/
theorem Succeeds.of_bind (h : Succeeds (x >>= next)) : ∃ a, x = .ok a ∧ Succeeds (next a) := by
  obtain ⟨b, hb⟩ := h
  obtain ⟨a, ha, hnext⟩ := bind_eq_ok_iff.1 hb
  exact ⟨a, ha, b, hnext⟩

theorem succeeds_map_iff {f : α → β} : Succeeds (f <$> x) ↔ Succeeds x :=
  ⟨Succeeds.of_map, Succeeds.map⟩

/-- An outcome behind another that does not depend on its value adds what it asks for itself. -/
theorem succeeds_bind_iff {p : Prop} (h : ∀ a, Succeeds (next a) ↔ p) :
    Succeeds (x >>= next) ↔ Succeeds x ∧ p := by
  constructor
  · intro hboth
    obtain ⟨a, ha, hnext⟩ := hboth.of_bind
    exact ⟨⟨a, ha⟩, (h a).1 hnext⟩
  · rintro ⟨hx, hp⟩
    exact hx.bind fun a => (h a).2 hp

/-- What always succeeds adds nothing. -/
theorem succeeds_bind_ok_iff (h : ∀ a, Succeeds (next a)) : Succeeds (x >>= next) ↔ Succeeds x :=
  (succeeds_bind_iff fun a => iff_true_intro (h a)).trans (and_true _).to_iff

theorem Succeeds.mapM {f : α → Outcome β} {as : List α} (h : ∀ a ∈ as, Succeeds (f a)) :
    Succeeds (as.mapM f) := by
  induction as with
  | nil => exact ⟨[], rfl⟩
  | cons a as ih =>
    obtain ⟨ha, hrest⟩ := List.forall_mem_cons.1 h
    rw [List.mapM_cons]
    exact ha.bind fun _ => (ih hrest).bind fun _ => ⟨_, rfl⟩

/-- A row of look-ups succeeds only if each of them does. -/
theorem Succeeds.of_mapM {f : α → Outcome β} {as : List α} (h : Succeeds (as.mapM f)) :
    ∀ a ∈ as, Succeeds (f a) := by
  induction as with
  | nil => exact fun a ha => absurd ha List.not_mem_nil
  | cons a as ih =>
    obtain ⟨bs, hbs⟩ := h
    rw [List.mapM_cons] at hbs
    obtain ⟨b, hb, hrest⟩ := bind_eq_ok_iff.1 hbs
    obtain ⟨rest, hrest, _⟩ := bind_eq_ok_iff.1 hrest
    exact List.forall_mem_cons.2 ⟨⟨b, hb⟩, ih ⟨rest, hrest⟩⟩

theorem succeeds_mapM_iff {f : α → Outcome β} {as : List α} :
    Succeeds (as.mapM f) ↔ ∀ a ∈ as, Succeeds (f a) := ⟨Succeeds.of_mapM, Succeeds.mapM⟩

namespace FailsOnly

variable {faults : DecodeError → Prop}

theorem of_succeeds (h : Succeeds x) : FailsOnly faults x := by
  obtain ⟨a, rfl⟩ := h
  exact fun e he => nomatch he

theorem pure (a : α) : FailsOnly faults (Pure.pure a : Outcome α) := of_succeeds ⟨a, rfl⟩

theorem throw (h : faults e) : FailsOnly faults (MonadExcept.throw e : Outcome α) :=
  fun _ he => Except.error.inj he ▸ h

theorem mono {faults' : DecodeError → Prop} (h : FailsOnly faults x)
    (hle : ∀ e, faults e → faults' e) : FailsOnly faults' x :=
  fun e he => hle e (h e he)

/-- **What bounds the faults of two outcomes bounds those of both in a row.** -/
theorem bind (h : FailsOnly faults x) (hnext : ∀ a, x = .ok a → FailsOnly faults (next a)) :
    FailsOnly faults (x >>= next) := by
  intro e he
  rcases bind_eq_error_iff.1 he with he | ⟨a, ha, he⟩
  · exact h e he
  · exact hnext a ha e he

/-- What is behind a value decides alone. -/
theorem behind (h : Succeeds x) (hnext : ∀ a, x = .ok a → FailsOnly faults (next a)) :
    FailsOnly faults (x >>= next) := (of_succeeds h).bind hnext

theorem map {f : α → β} (h : FailsOnly faults x) : FailsOnly faults (f <$> x) :=
  fun e he => h e (map_eq_error_iff.1 he)

/-- **What bounds the faults of the look-ups bounds those of all in a row.** -/
theorem mapM {f : α → Outcome β} {as : List α} (h : ∀ a ∈ as, FailsOnly faults (f a)) :
    FailsOnly faults (as.mapM f) := by
  induction as with
  | nil => exact pure []
  | cons a as ih =>
    obtain ⟨ha, hrest⟩ := List.forall_mem_cons.1 h
    rw [List.mapM_cons]
    exact ha.bind fun _ _ => (ih hrest).bind fun _ _ => pure _

end FailsOnly

/-! ## 3. Checks -/

/-- Whether there is a value, and if not why. -/
def check (x : Outcome α) : Outcome Unit := (fun _ => ()) <$> x

theorem succeeds_check_iff : (check x).Succeeds ↔ x.Succeeds := succeeds_map_iff

theorem check_eq_error_iff : check x = .error e ↔ x = .error e := map_eq_error_iff

theorem check_map (f : α → β) : check (f <$> x) = check x := by
  cases x <;> rfl

/-- What always succeeds behind a value adds nothing to check. -/
theorem check_bind_ok (h : ∀ a, check (next a) = .ok ()) : check (x >>= next) = check x := by
  cases x with
  | error e => rfl
  | ok a => exact h a

/-- What is checked the same way behind every value does not depend on the value. -/
theorem check_bind {y : Outcome Unit} (h : ∀ a, check (next a) = y) :
    check (x >>= next) = check x >>= fun _ => y := by
  cases x with
  | error e => rfl
  | ok a => exact h a

theorem check_mapM (f : α → Outcome β) (as : List α) :
    check (as.mapM f) = forM as fun a => check (f a) := by
  induction as with
  | nil => rfl
  | cons a as ih =>
    rw [List.mapM_cons, List.forM_cons, ← ih]
    exact check_bind fun _ => check_bind_ok fun _ => rfl

theorem forM_congr {f g : α → Outcome Unit} {as : List α} (h : ∀ a ∈ as, f a = g a) :
    forM as f = forM as g := by
  induction as with
  | nil => rfl
  | cons a as ih =>
    obtain ⟨ha, hrest⟩ := List.forall_mem_cons.1 h
    rw [List.forM_cons, List.forM_cons, ha, ih hrest]

theorem forM_singleton (f : α → Outcome Unit) (a : α) : forM [a] f = f a := by
  rw [List.forM_cons]
  cases f a <;> rfl

/-- A row of checks succeeds exactly if each of them does. -/
theorem succeeds_forM_iff {f : α → Outcome Unit} {as : List α} :
    (forM as f).Succeeds ↔ ∀ a ∈ as, (f a).Succeeds := by
  induction as with
  | nil => exact ⟨fun _ _ ha => absurd ha List.not_mem_nil, fun _ => ⟨(), rfl⟩⟩
  | cons a as ih =>
    rw [List.forM_cons, List.forall_mem_cons, ← ih]
    refine ⟨fun h => ?_, fun h => h.1.bind fun _ => h.2⟩
    obtain ⟨done, ha, hrest⟩ := h.of_bind
    exact ⟨⟨done, ha⟩, hrest⟩

/-- **A row of checks fails as the first of them that fails.** -/
theorem forM_eq_error_iff {f : α → Outcome Unit} {as : List α} :
    forM as f = .error e ↔ ∃ front a back, as = front ++ a :: back ∧
      (∀ b ∈ front, (f b).Succeeds) ∧ f a = .error e := by
  induction as with
  | nil =>
    refine ⟨fun h => (nomatch h), fun h => ?_⟩
    obtain ⟨front, a, back, has, _⟩ := h
    exact absurd has.symm (List.append_ne_nil_of_right_ne_nil front (List.cons_ne_nil a back))
  | cons a as ih =>
    rw [List.forM_cons, bind_eq_error_iff, ih]
    refine ⟨fun h => ?_, fun h => ?_⟩
    · rcases h with ha | ⟨done, ha, front, b, back, rfl, hfront, hb⟩
      · exact ⟨[], a, as, rfl, fun _ hb => absurd hb List.not_mem_nil, ha⟩
      · exact ⟨a :: front, b, back, rfl, List.forall_mem_cons.2 ⟨⟨done, ha⟩, hfront⟩, hb⟩
    · obtain ⟨front, b, back, has, hfront, hb⟩ := h
      cases front with
      | nil =>
        obtain ⟨rfl, _⟩ := List.cons.inj has
        exact .inl hb
      | cons a' front =>
        obtain ⟨rfl, rfl⟩ := List.cons.inj has
        obtain ⟨⟨done, ha⟩, hfront⟩ := List.forall_mem_cons.1 hfront
        exact .inr ⟨done, ha, front, b, back, rfl, hfront, hb⟩

/-- A row of look-ups fails as the first of them that fails. -/
theorem mapM_eq_error_iff {f : α → Outcome β} {as : List α} :
    as.mapM f = .error e ↔ ∃ front a back, as = front ++ a :: back ∧
      (∀ b ∈ front, (f b).Succeeds) ∧ f a = .error e := by
  rw [← check_eq_error_iff, check_mapM, forM_eq_error_iff]
  simp only [succeeds_check_iff, check_eq_error_iff]

/-- In an ordered row the first one that fails is the least one that does. -/
theorem forM_eq_error_iff_least {f : α → Outcome Unit} {as : List α} {lt : α → α → Prop}
    (hordered : as.Pairwise lt) (hasymm : ∀ a b, lt a b → ¬ lt b a) :
    forM as f = .error e ↔ ∃ a ∈ as, f a = .error e ∧ ∀ b ∈ as, lt b a → (f b).Succeeds := by
  rw [forM_eq_error_iff]
  refine ⟨fun h => ?_, fun h => ?_⟩
  · obtain ⟨front, a, back, rfl, hfront, ha⟩ := h
    refine ⟨a, List.mem_append_right _ List.mem_cons_self, ha, fun b hb hlt => ?_⟩
    have hbehind := (List.pairwise_append.1 hordered).2.1
    rcases List.mem_append.1 hb with hb | hb
    · exact hfront b hb
    rcases List.mem_cons.1 hb with rfl | hb
    · exact absurd hlt (hasymm b b hlt)
    · exact absurd hlt (hasymm a b (List.rel_of_pairwise_cons hbehind hb))
  · obtain ⟨a, ha, hfails, hleast⟩ := h
    obtain ⟨front, back, rfl⟩ := List.append_of_mem ha
    refine ⟨front, a, back, rfl, fun b hb => hleast b (List.mem_append_left _ hb) ?_, hfails⟩
    exact (List.pairwise_append.1 hordered).2.2 b hb a List.mem_cons_self

/-- A row of look-ups that all succeed answers what each of them does. -/
theorem forall₂_of_mapM {f : α → Outcome β} {as : List α} {bs : List β}
    (h : as.mapM f = .ok bs) : List.Forall₂ (fun a b => f a = .ok b) as bs := by
  induction as generalizing bs with
  | nil =>
    cases h
    exact .nil
  | cons a as ih =>
    rw [List.mapM_cons] at h
    obtain ⟨b, hb, hbehind⟩ := bind_eq_ok_iff.1 h
    obtain ⟨rest, hrest, hbs⟩ := bind_eq_ok_iff.1 hbehind
    cases hbs
    exact .cons hb (ih hrest)

/-- **A row of look-ups answers just the row of what each of them does.** -/
theorem mapM_eq_ok_iff {f : α → Outcome β} {as : List α} {bs : List β} :
    as.mapM f = .ok bs ↔ List.Forall₂ (fun a b => f a = .ok b) as bs := by
  refine ⟨forall₂_of_mapM, fun h => ?_⟩
  induction h with
  | nil => rfl
  | cons hfirst _ ih =>
    rw [List.mapM_cons, hfirst, ih]
    rfl

/-! ## 4. Two outcomes side by side -/

/-- Where the second outcome has a value, the first one has a value too, related to that one. -/
def Within {γ : Type} (R : α → γ → Prop) (x : Outcome α) (y : Outcome γ) : Prop :=
  ∀ c, y = .ok c → ∃ a, x = .ok a ∧ R a c

namespace Within

variable {γ δ : Type} {R : α → γ → Prop} {S : β → δ → Prop} {y : Outcome γ}
  {more : γ → Outcome δ}

theorem pure {a : α} {c : γ} (h : R a c) : Within R (Pure.pure a) (Pure.pure c) :=
  fun _ hc => ⟨a, rfl, Except.ok.inj hc ▸ h⟩

theorem refl {R : α → α → Prop} (h : ∀ a, R a a) (x : Outcome α) : Within R x x :=
  fun a ha => ⟨a, ha, h a⟩

/-- **What is within step by step is within as a whole.** -/
theorem bind (h : Within R x y) (hnext : ∀ a c, R a c → Within S (next a) (more c)) :
    Within S (x >>= next) (y >>= more) := by
  intro d hd
  obtain ⟨c, hc, hmore⟩ := bind_eq_ok_iff.1 hd
  obtain ⟨a, ha, hac⟩ := h c hc
  obtain ⟨b, hb, hbd⟩ := hnext a c hac d hmore
  exact ⟨b, bind_eq_ok_iff.2 ⟨a, ha, hb⟩, hbd⟩

/-- Both start with the same. -/
theorem same {next' : α → Outcome δ} (hnext : ∀ a, Within S (next a) (next' a)) :
    Within S (x >>= next) (x >>= next') :=
  (refl (R := Eq) (fun _ => rfl) x).bind fun a _ h => h ▸ hnext a

/-- The second one has a step more in front. -/
theorem skip {x : Outcome β} (h : ∀ c, Within S x (more c)) : Within S x (y >>= more) := by
  intro d hd
  obtain ⟨c, _, hmore⟩ := bind_eq_ok_iff.1 hd
  exact h c d hmore

/-- **Two rows that are within each other entry by entry are so as a whole.** -/
theorem mapM {ι : Type} {f : ι → Outcome α} {g : ι → Outcome γ} {is : List ι}
    (h : ∀ i ∈ is, Within R (f i) (g i)) : Within (List.Forall₂ R) (is.mapM f) (is.mapM g) := by
  induction is with
  | nil => exact pure .nil
  | cons i is ih =>
    obtain ⟨hi, hrest⟩ := List.forall_mem_cons.1 h
    rw [List.mapM_cons, List.mapM_cons]
    exact hi.bind fun _ _ hac => (ih hrest).bind fun _ _ hrows => pure (.cons hac hrows)

end Within

/-- Rows whose entries have the same outcomes in pairs have the same outcome. -/
theorem mapM_eq_of_forall₂ {ι κ : Type} {f : ι → Outcome α} {g : κ → Outcome α} {is : List ι}
    {ks : List κ} (h : List.Forall₂ (fun i k => f i = g k) is ks) : is.mapM f = ks.mapM g := by
  induction h with
  | nil => rfl
  | cons hfirst _ ih => rw [List.mapM_cons, List.mapM_cons, hfirst, ih]

end ClassView.Outcome
