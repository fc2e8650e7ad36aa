import SkillCompiler.Error
import SkillCompiler.Log.Entry

/-!
# Loops that may fail and leave entries behind

A loop that ends well has ended well in every round (`foldlM_invariant`). The value of a loop is the
loop of the values: what is noted on the way never decides anything.
-/

namespace SkillCompiler

variable {ε α β : Type}

theorem Except.ok_bind (a : α) (f : α → Except ε β) : (Except.ok a).bind f = f a := rfl

theorem bind_eq_of_ok {x : Except ε α} {f : α → Except ε β} {a : α} (h : x = .ok a) :
    x >>= f = f a := by
  rw [h]
  rfl

theorem exists_of_bind_eq_ok {x : Except ε α} {f : α → Except ε β} {r : β}
    (h : x >>= f = .ok r) : ∃ a, x = .ok a ∧ f a = .ok r := by
  cases x with
  | error e => simp [bind, Except.bind] at h
  | ok a => exact ⟨a, rfl, h⟩

theorem eq_ok_of_mapError_eq_ok {ε' : Type} {x : Except ε α} {f : ε → ε'} {a : α}
    (h : x.mapError f = .ok a) : x = .ok a := by
  cases x with
  | error e => cases h
  | ok b =>
    cases h
    rfl

theorem exists_of_isOk {x : Except ε α} (h : x.isOk) : ∃ a, x = .ok a := by
  cases x with
  | error e => cases h
  | ok a => exact ⟨a, rfl⟩

/-- What every round of a loop keeps, the loop keeps. -/
theorem foldlM_invariant {step : β → α → Except ε β} (P : β → Prop) :
    ∀ {l : List α} {b b' : β}, (∀ a ∈ l, ∀ b b', step b a = .ok b' → P b → P b') → P b →
      l.foldlM step b = .ok b' → P b'
  | [], b, b', _, hb, h => by
    cases h
    exact hb
  | a :: l, b, b', hstep, hb, h => by
    rw [List.foldlM_cons] at h
    obtain ⟨b₁, hb₁, h⟩ := exists_of_bind_eq_ok h
    exact foldlM_invariant P (fun x hx => hstep x (List.mem_cons_of_mem _ hx))
      (hstep a (List.mem_cons_self ..) b b₁ hb₁ hb) h

namespace Logged

@[simp] theorem log_pure (a : α) : (pure a : Logged α).log = [] := rfl

@[simp] theorem log_note (entry : Entry) : (note entry).log = [entry] := rfl

theorem value_foldlM (f : β → α → Logged β) :
    ∀ (l : List α) (b : β), (l.foldlM f b).value = l.foldl (fun b a => (f b a).value) b
  | [], _ => rfl
  | a :: l, b => by
    rw [List.foldlM_cons, value_bind, value_foldlM f l, List.foldl_cons]

theorem value_mapM (f : α → Logged β) (l : List α) :
    (l.mapM f).value = l.map fun a => (f a).value := by
  have hloop : ∀ (l : List α) (acc : List β),
      (List.mapM.loop f l acc).value = acc.reverse ++ l.map fun a => (f a).value := by
    intro l
    induction l with
    | nil => exact fun acc => (List.append_nil _).symm
    | cons a l ih =>
      intro acc
      rw [List.mapM.loop, value_bind, ih, List.reverse_cons, List.append_assoc, List.map_cons,
        List.singleton_append]
  exact hloop l []

end Logged

namespace Attempt

theorem result_lift (x : Logged α) : (liftM x : Attempt ε α).result = .ok x.value := rfl

theorem exists_of_result_bind {x : Attempt ε α} {f : α → Attempt ε β} {b : β}
    (h : (x >>= f).result = .ok b) : ∃ a, x.result = .ok a ∧ (f a).result = .ok b := by
  rw [result_bind] at h
  exact exists_of_bind_eq_ok h

theorem result_foldlM (f : β → α → Attempt ε β) :
    ∀ (l : List α) (b : β), (l.foldlM f b).result = l.foldlM (fun b a => (f b a).result) b
  | [], b => rfl
  | a :: l, b => by
    rw [List.foldlM_cons, List.foldlM_cons, Attempt.result_bind]
    congr 1
    funext b'
    exact result_foldlM f l b'

end Attempt

end SkillCompiler
