import Mathlib.Data.List.Forall2
import ValueSchema.Failure

/-! # Computations that can fail -/

namespace ValueSchema

section Equations

variable {ε α β : Type}

@[simp] theorem ok_bind (a : α) (f : α → Except ε β) : (Except.ok a >>= f) = f a := rfl

@[simp] theorem error_bind (e : ε) (f : α → Except ε β) :
    ((Except.error e : Except ε α) >>= f) = .error e := rfl

theorem pure_eq_ok (a : α) : (pure a : Except ε α) = .ok a := rfl

theorem throw_eq_error (e : ε) : (throw e : Except ε α) = .error e := rfl

theorem bind_eq_ok_iff {x : Except ε α} {f : α → Except ε β} {b : β} :
    (x >>= f) = .ok b ↔ ∃ a, x = .ok a ∧ f a = .ok b := by
  cases x <;> simp

/-- If a result comes from one intermediate value only, it is there when that value is. -/
theorem bind_eq_ok_iff_eq_ok {x : Except ε α} {f : α → Except ε β} {a : α} {b : β}
    (h : ∀ a', f a' = .ok b ↔ a' = a) : x >>= f = .ok b ↔ x = .ok a := by
  simp [bind_eq_ok_iff, h]

theorem map_eq_ok_iff {x : Except ε α} {f : α → β} {b : β} :
    (f <$> x) = .ok b ↔ ∃ a, x = .ok a ∧ f a = b := by
  cases x <;> simp

theorem bind_eq_error_iff {x : Except ε α} {f : α → Except ε β} {e : ε} :
    (x >>= f) = .error e ↔ x = .error e ∨ ∃ a, x = .ok a ∧ f a = .error e := by
  cases x <;> simp

theorem map_eq_error_iff {x : Except ε α} {f : α → β} {e : ε} :
    (f <$> x) = .error e ↔ x = .error e := by
  cases x <;> simp

/-- A traversal succeeds with the results of its items. -/
theorem mapM_eq_ok_iff {f : α → Except ε β} {xs : List α} {ys : List β} :
    xs.mapM f = .ok ys ↔ List.Forall₂ (fun x y => f x = .ok y) xs ys := by
  induction xs generalizing ys with
  | nil => simp [pure_eq_ok, eq_comm]
  | cons x xs ih =>
      simp only [List.mapM_cons, bind_eq_ok_iff, ih, pure_eq_ok, Except.ok.injEq,
        List.forall₂_cons_left_iff]
      constructor
      · rintro ⟨y, hy, rest, hrest, rfl⟩
        exact ⟨y, rest, hy, hrest, rfl⟩
      · rintro ⟨y, rest, hy, hrest, rfl⟩
        exact ⟨y, hy, rest, hrest, rfl⟩

theorem exists_mapM_eq_ok_iff {f : α → Except ε β} {xs : List α} {good : β → Prop} :
    (∃ ys, xs.mapM f = .ok ys ∧ ∀ y ∈ ys, good y) ↔ ∀ x ∈ xs, ∃ y, f x = .ok y ∧ good y := by
  induction xs with
  | nil => simp [pure_eq_ok]
  | cons x xs ih =>
      rw [List.forall_mem_cons, ← ih]
      simp only [List.mapM_cons, bind_eq_ok_iff, pure_eq_ok, Except.ok.injEq]
      constructor
      · rintro ⟨_, ⟨y, hy, rest, hrest, rfl⟩, hgood⟩
        rw [List.forall_mem_cons] at hgood
        exact ⟨⟨y, hy, hgood.1⟩, rest, hrest, hgood.2⟩
      · rintro ⟨⟨y, hy, hgood⟩, rest, hrest, hgoods⟩
        exact ⟨y :: rest, ⟨y, hy, rest, hrest, rfl⟩, List.forall_mem_cons.mpr ⟨hgood, hgoods⟩⟩

/-- Every item of a traversal that succeeds has its result among the results. -/
theorem exists_of_mapM_eq_ok {f : α → Except ε β} {xs : List α} {ys : List β}
    (h : xs.mapM f = .ok ys) {x : α} (hx : x ∈ xs) : ∃ y ∈ ys, f x = .ok y := by
  obtain ⟨y, hy, hmem⟩ := exists_mapM_eq_ok_iff.mp ⟨ys, h, fun _ hmem => hmem⟩ x hx
  exact ⟨y, hmem, hy⟩

/-- A traversal that fails has an item that fails in the same way. -/
theorem exists_of_mapM_eq_error {f : α → Except ε β} {xs : List α} {e : ε}
    (h : xs.mapM f = .error e) : ∃ x ∈ xs, f x = .error e := by
  induction xs with
  | nil => cases h
  | cons x xs ih =>
      rw [List.mapM_cons, bind_eq_error_iff] at h
      rcases h with hhead | ⟨y, -, hrest⟩
      · exact ⟨x, List.mem_cons_self .., hhead⟩
      · rw [bind_pure_comp, map_eq_error_iff] at hrest
        obtain ⟨x', hx', herror⟩ := ih hrest
        exact ⟨x', List.mem_cons_of_mem _ hx', herror⟩

theorem forall_of_forall₂ {rel : α → β → Prop} {good : β → Prop} {xs : List α} {ys : List β}
    (h : List.Forall₂ rel xs ys) (hgood : ∀ x y, x ∈ xs → rel x y → good y) :
    ∀ y ∈ ys, good y := by
  induction h with
  | nil => simp
  | @cons x y xs ys hhead _ ih =>
      rw [List.forall_mem_cons]
      refine ⟨hgood x y (List.mem_cons_self ..) hhead, ih fun x' y' hx' hrel => ?_⟩
      exact hgood x' y' (List.mem_cons_of_mem _ hx') hrel

theorem exists_mem_mapM_iff {f : α → Except ε β} {xs : List α} {ys : List β}
    (h : xs.mapM f = .ok ys) {good : β → Prop} :
    (∃ y ∈ ys, good y) ↔ ∃ x ∈ xs, ∃ y, f x = .ok y ∧ good y := by
  constructor
  · rintro ⟨y, hy, hgood⟩
    have hsource : ∀ y ∈ ys, ∃ x ∈ xs, f x = .ok y :=
      forall_of_forall₂ (mapM_eq_ok_iff.mp h) fun x y hx hxy => ⟨x, hx, hxy⟩
    obtain ⟨x, hx, hxy⟩ := hsource y hy
    exact ⟨x, hx, y, hxy, hgood⟩
  · rintro ⟨x, hx, y, hxy, hgood⟩
    obtain ⟨y', hy', hxy'⟩ := exists_of_mapM_eq_ok h hx
    obtain rfl := Except.ok.inj (hxy.symm.trans hxy')
    exact ⟨y, hy', hgood⟩

theorem map_eq_map_of_forall₂ {γ : Type} {rel : α → β → Prop} {f : α → γ} {g : β → γ} {xs : List α}
    {ys : List β} (h : List.Forall₂ rel xs ys) (hrel : ∀ x y, rel x y → f x = g y) :
    xs.map f = ys.map g := by
  induction h with
  | nil => rfl
  | cons hhead _ ih => rw [List.map_cons, List.map_cons, hrel _ _ hhead, ih]

theorem forall₂_imp_of_mem {rel rel' : α → β → Prop} {xs : List α} {ys : List β}
    (h : List.Forall₂ rel xs ys) (hrel : ∀ x ∈ xs, ∀ y, rel x y → rel' x y) :
    List.Forall₂ rel' xs ys := by
  have hmem : List.Forall₂ (fun x y => x ∈ xs ∧ rel x y) xs ys :=
    (List.forall₂_and_left ..).mpr ⟨fun _ hx => hx, h⟩
  exact hmem.imp fun x y hxy => hrel x hxy.1 y hxy.2

theorem mapM_eq_of_forall₂ {γ : Type} {f : α → Except ε γ} {g : β → Except ε γ} {xs : List α}
    {ys : List β} (h : List.Forall₂ (fun x y => f x = g y) xs ys) : xs.mapM f = ys.mapM g := by
  induction h with
  | nil => rfl
  | cons hhead _ ih => rw [List.mapM_cons, List.mapM_cons, hhead, ih]

theorem forall₂_zipIdx {rel : α → β → Prop} {xs : List α} {ys : List β}
    (h : List.Forall₂ rel xs ys) (start : Nat) :
    List.Forall₂ (fun x y => rel x.1 y.1 ∧ x.2 = y.2) (xs.zipIdx start) (ys.zipIdx start) := by
  induction h generalizing start with
  | nil => exact .nil
  | cons hhead _ ih =>
      rw [List.zipIdx_cons, List.zipIdx_cons]
      exact .cons ⟨hhead, rfl⟩ (ih (start + 1))

/-- Lists with the same keys are related item by item. -/
theorem forall₂_of_map_eq {γ : Type} {rel : α → β → Prop} {f : α → γ} {g : β → γ} {xs : List α}
    {ys : List β} (h : xs.map f = ys.map g)
    (hrel : ∀ x ∈ xs, ∀ y ∈ ys, f x = g y → rel x y) : List.Forall₂ rel xs ys := by
  induction xs generalizing ys with
  | nil =>
      obtain rfl : ys = [] := by simpa using h.symm
      exact .nil
  | cons x xs ih =>
      cases ys with
      | nil => cases h
      | cons y ys =>
          rw [List.map_cons, List.map_cons, List.cons.injEq] at h
          refine .cons (hrel x (List.mem_cons_self ..) y (List.mem_cons_self ..) h.1) (ih h.2 ?_)
          intro x' hx' y' hy'
          exact hrel x' (List.mem_cons_of_mem _ hx') y' (List.mem_cons_of_mem _ hy')

/-- Items that are passed over can be left out before a traversal or after it. -/
theorem filterMap_id_mapM (f : α → Option β) {γ : Type} (g : β → Except ε γ) (xs : List α) :
    List.filterMap id <$> xs.mapM (fun x => (f x).mapM g) = (xs.filterMap f).mapM g := by
  induction xs with
  | nil => rfl
  | cons x xs ih =>
      rw [List.mapM_cons, List.filterMap_cons]
      cases hx : f x with
      | none =>
          rw [← ih, Option.mapM_none, pure_eq_ok, ok_bind]
          cases xs.mapM (fun x => (f x).mapM g) <;> rfl
      | some y =>
          rw [List.mapM_cons, ← ih, Option.mapM_some]
          cases g y with
          | error e => rfl
          | ok z => cases xs.mapM (fun x => (f x).mapM g) <;> rfl

end Equations

/-! ## The contract of one computation -/

/-- Either a result with the one property or a failure with the other. -/
def Yields {ε α : Type} (good : α → Prop) (allowed : ε → Prop) : Except ε α → Prop
  | .ok a => good a
  | .error e => allowed e

namespace Yields

theorem bind {ε α β : Type} {good : α → Prop} {good' : β → Prop} {allowed : ε → Prop}
    {x : Except ε α} {f : α → Except ε β} (hx : Yields good allowed x)
    (hf : ∀ a, good a → Yields good' allowed (f a)) : Yields good' allowed (x >>= f) := by
  cases x with
  | error e => exact hx
  | ok a => exact hf a hx

/-- Sequencing where nothing is known of the first result. -/
theorem seq {ε α β : Type} {good : β → Prop} {allowed : ε → Prop} {x : Except ε α}
    {f : α → Except ε β} (hx : Yields (fun _ => True) allowed x)
    (hf : ∀ a, Yields good allowed (f a)) : Yields good allowed (x >>= f) :=
  hx.bind fun a _ => hf a

theorem good_of_eq_ok {ε α : Type} {good : α → Prop} {allowed : ε → Prop} {x : Except ε α}
    {a : α} (hx : Yields good allowed x) (h : x = .ok a) : good a := by
  rwa [h] at hx

theorem allowed_of_eq_error {ε α : Type} {good : α → Prop} {allowed : ε → Prop} {x : Except ε α}
    {e : ε} (hx : Yields good allowed x) (h : x = .error e) : allowed e := by
  rwa [h] at hx

theorem exists_eq_ok {ε α : Type} {good : α → Prop} {x : Except ε α}
    (hx : Yields good (fun _ => False) x) : ∃ a, x = .ok a := by
  cases x with
  | error e => exact hx.elim
  | ok a => exact ⟨a, rfl⟩

theorem mono {ε α : Type} {good good' : α → Prop} {allowed allowed' : ε → Prop}
    {x : Except ε α} (hx : Yields good allowed x) (hgood : ∀ a, good a → good' a)
    (hallowed : ∀ e, allowed e → allowed' e) : Yields good' allowed' x := by
  cases x with
  | error e => exact hallowed e hx
  | ok a => exact hgood a hx

theorem map {ε α β : Type} {good : α → Prop} {good' : β → Prop} {allowed : ε → Prop}
    {x : Except ε α} {f : α → β} (hx : Yields good allowed x) (hf : ∀ a, good a → good' (f a)) :
    Yields good' allowed (f <$> x) := by
  cases x with
  | error e => exact hx
  | ok a => exact hf a hx

/-- A traversal keeps the contract that each of its items keeps. -/
theorem mapM {ε α β : Type} {good : α → β → Prop} {allowed : ε → Prop} {f : α → Except ε β}
    {xs : List α} (h : ∀ x ∈ xs, Yields (good x) allowed (f x)) :
    Yields (List.Forall₂ good xs) allowed (xs.mapM f) := by
  induction xs with
  | nil => exact List.Forall₂.nil
  | cons x xs ih =>
      rw [List.forall_mem_cons] at h
      rw [List.mapM_cons]
      refine bind h.1 fun y hy => bind (ih h.2) fun ys hys => ?_
      exact List.Forall₂.cons hy hys

/-- Traversal where nothing is known of the results. -/
theorem traverse {ε α β : Type} {allowed : ε → Prop} {f : α → Except ε β} {xs : List α}
    (h : ∀ x ∈ xs, Yields (fun _ => True) allowed (f x)) :
    Yields (fun _ => True) allowed (xs.mapM f) :=
  (mapM h).mono (fun _ _ => trivial) fun _ he => he

end Yields

/-! ## Comparison of two computations -/

/-- The second computation returns what the first returns, up to a relation between the results,
unless the first fails in a way that is set aside. -/
inductive Refines {α β : Type} (aside : Failure → Prop) (rel : α → β → Prop) :
    Except Failure α → Except Failure β → Prop
  | aside {failure : Failure} (h : aside failure) (y : Except Failure β) :
      Refines aside rel (.error failure) y
  | error (failure : Failure) : Refines aside rel (.error failure) (.error failure)
  | ok {a : α} {b : β} (h : rel a b) : Refines aside rel (.ok a) (.ok b)

namespace Refines

theorem refl {α : Type} {aside : Failure → Prop} {rel : α → α → Prop} (h : ∀ a, rel a a)
    (x : Except Failure α) : Refines aside rel x x := by
  cases x with
  | error failure => exact .error failure
  | ok a => exact .ok (h a)

theorem imp {α β : Type} {aside : Failure → Prop} {rel rel' : α → β → Prop} {x : Except Failure α}
    {y : Except Failure β} (h : Refines aside rel x y) (hrel : ∀ a b, rel a b → rel' a b) :
    Refines aside rel' x y := by
  cases h with
  | aside haside y => exact .aside haside y
  | error failure => exact .error failure
  | ok hab => exact .ok (hrel _ _ hab)

theorem bind {α β γ δ : Type} {aside : Failure → Prop} {rel : α → β → Prop} {rel' : γ → δ → Prop}
    {x : Except Failure α} {y : Except Failure β} {f : α → Except Failure γ}
    {g : β → Except Failure δ} (hx : Refines aside rel x y)
    (hf : ∀ a b, rel a b → Refines aside rel' (f a) (g b)) :
    Refines aside rel' (x >>= f) (y >>= g) := by
  cases hx with
  | aside h y => exact .aside h _
  | error failure => exact .error failure
  | ok h => exact hf _ _ h

theorem bind_eq {α γ δ : Type} {aside : Failure → Prop} {rel : γ → δ → Prop}
    {x y : Except Failure α} {f : α → Except Failure γ} {g : α → Except Failure δ}
    (hx : Refines aside Eq x y) (hf : ∀ a, Refines aside rel (f a) (g a)) :
    Refines aside rel (x >>= f) (y >>= g) := by
  refine hx.bind ?_
  rintro a _ rfl
  exact hf a

theorem map {α β γ δ : Type} {aside : Failure → Prop} {rel : α → β → Prop} {rel' : γ → δ → Prop}
    {x : Except Failure α} {y : Except Failure β} {f : α → γ} {g : β → δ}
    (hx : Refines aside rel x y) (hf : ∀ a b, rel a b → rel' (f a) (g b)) :
    Refines aside rel' (f <$> x) (g <$> y) := by
  cases hx with
  | aside h y => exact .aside h _
  | error failure => exact .error failure
  | ok h => exact .ok (hf _ _ h)

theorem map_eq {α β : Type} {aside : Failure → Prop} {x y : Except Failure α}
    (hx : Refines aside Eq x y) (f : α → β) : Refines aside Eq (f <$> x) (f <$> y) :=
  hx.map fun _ _ hab => congrArg f hab

/-- Traversals of related lists are related if each pair of items is. -/
theorem mapM {α β γ δ : Type} {aside : Failure → Prop} {rel : α → β → Prop} {rel' : γ → δ → Prop}
    {xs : List α} {ys : List β} {f : α → Except Failure γ} {g : β → Except Failure δ}
    (h : List.Forall₂ rel xs ys) (hf : ∀ x y, rel x y → Refines aside rel' (f x) (g y)) :
    Refines aside (List.Forall₂ rel') (xs.mapM f) (ys.mapM g) := by
  induction h with
  | nil => exact .ok .nil
  | cons hhead _ ih =>
      rw [List.mapM_cons, List.mapM_cons]
      refine bind (hf _ _ hhead) fun a b hab => bind ih fun as bs habs => ?_
      exact .ok (.cons hab habs)

/-- Traversals with equal results. -/
theorem mapM_eq {α β γ : Type} {aside : Failure → Prop} {rel : α → β → Prop} {xs : List α}
    {ys : List β} {f : α → Except Failure γ} {g : β → Except Failure γ}
    (h : List.Forall₂ rel xs ys) (hf : ∀ x y, rel x y → Refines aside Eq (f x) (g y)) :
    Refines aside Eq (xs.mapM f) (ys.mapM g) := by
  have hlists := mapM h hf
  rwa [List.forall₂_eq_eq_eq] at hlists

theorem mapM_same {α β : Type} {aside : Failure → Prop} {xs : List α}
    {f g : α → Except Failure β} (hf : ∀ x ∈ xs, Refines aside Eq (f x) (g x)) :
    Refines aside Eq (xs.mapM f) (xs.mapM g) := by
  have hself : List.Forall₂ (fun x y => x = y ∧ x ∈ xs) xs xs :=
    List.forall₂_same.mpr fun x hx => ⟨rfl, hx⟩
  refine mapM_eq hself ?_
  rintro x _ ⟨rfl, hx⟩
  exact hf x hx

theorem of_map {α β γ δ : Type} {aside : Failure → Prop} {rel : γ → δ → Prop}
    {x : Except Failure α} {y : Except Failure β} {f : α → γ} {g : β → δ}
    (h : Refines aside rel (f <$> x) (g <$> y)) :
    Refines aside (fun a b => rel (f a) (g b)) x y := by
  cases x with
  | error failure =>
      cases y with
      | error failure' =>
          cases h with
          | aside haside _ => exact .aside haside _
          | error => exact .error failure
      | ok b =>
          cases h with
          | aside haside _ => exact .aside haside _
  | ok a =>
      cases y with
      | error failure => cases h
      | ok b =>
          cases h with
          | ok hrel => exact .ok hrel

/-- If all failures are set aside, the second computation may return what is related to every
result of the first. -/
theorem ok_right {α β : Type} {rel : α → β → Prop} {b : β} (h : ∀ a, rel a b)
    (x : Except Failure α) : Refines (fun _ => True) rel x (.ok b) := by
  cases x with
  | error failure => exact .aside trivial _
  | ok a => exact .ok (h a)

theorem exists_eq_ok {α β : Type} {aside : Failure → Prop} {rel : α → β → Prop}
    {x : Except Failure α} {y : Except Failure β} (h : Refines aside rel x y) {a : α}
    (hx : x = .ok a) : ∃ b, y = .ok b ∧ rel a b := by
  subst hx
  cases h with
  | ok hrel => exact ⟨_, rfl, hrel⟩

/-- If the first computation does not fail in a way that is set aside, and results are to be
equal, so are the computations. -/
theorem eq_of_not_aside {α : Type} {aside : Failure → Prop} {x y : Except Failure α}
    (h : Refines aside Eq x y) (hx : ∀ failure, x = .error failure → ¬aside failure) : x = y := by
  cases h with
  | aside haside y => exact (hx _ rfl haside).elim
  | error failure => rfl
  | ok heq => rw [heq]

/-- If nothing is set aside, the computations are equal. -/
theorem eq {α : Type} {x y : Except Failure α} (h : Refines (fun _ => False) Eq x y) : x = y :=
  h.eq_of_not_aside fun _ _ haside => haside

end Refines

end ValueSchema
