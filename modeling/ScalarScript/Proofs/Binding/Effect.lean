import ScalarScript.Program.Bind

/-!
What a binder does, taken apart. A binder gives a result, leaves scopes and finds faults; all three
depend on the scopes it starts from, and none on the diagnostics that are there already. So a
sequence of binders is understood from its members.
-/

set_option autoImplicit false

namespace ScalarScript

namespace Binder

variable {α β : Type}

def result (x : Binder α) (scopes : ScopeChain) : α := (x.run ⟨scopes, []⟩).1

def scopesAfter (x : Binder α) (scopes : ScopeChain) : ScopeChain := (x.run ⟨scopes, []⟩).2.scopes

def found (x : Binder α) (scopes : ScopeChain) : List Diagnostic :=
  (x.run ⟨scopes, []⟩).2.diagnostics

/-- The binder adds to the diagnostics and never looks at those that are there. -/
class Additive (x : Binder α) : Prop where
  run_eq : ∀ b : Binding,
    x.run b = (x.result b.scopes, ⟨x.scopesAfter b.scopes, b.diagnostics ++ x.found b.scopes⟩)

class Still (x : Binder α) : Prop where
  scopesAfter_eq : ∀ scopes, x.scopesAfter scopes = scopes

class Reads (x : Binder α) : Prop extends Additive x, Still x

@[simp] theorem scopesAfter_still (x : Binder α) [Still x] (scopes : ScopeChain) :
    x.scopesAfter scopes = scopes := Still.scopesAfter_eq scopes

/-- Enough to see that a binder is additive: how it runs, said of all diagnostics at once. -/
theorem Additive.of_run {x : Binder α} (r : ScopeChain → α) (s : ScopeChain → ScopeChain)
    (f : ScopeChain → List Diagnostic)
    (h : ∀ b : Binding, x.run b = (r b.scopes, ⟨s b.scopes, b.diagnostics ++ f b.scopes⟩)) :
    Additive x where
  run_eq b := by simp [h, result, scopesAfter, found]

instance (a : α) : Additive (pure a : Binder α) :=
  .of_run (fun _ => a) id (fun _ => []) fun b => by
    simp only [StateT.run_pure, id_eq, List.append_nil]
    rfl

instance (span : Span) (fault : Fault) : Additive (report span fault) :=
  .of_run (fun _ => ()) id (fun _ => [⟨span, fault⟩]) fun _ => rfl

instance (f : ScopeChain → ScopeChain) : Additive (inScopes f) :=
  .of_run (fun _ => ()) f (fun _ => []) fun b => by
    simp only [List.append_nil]
    rfl

instance (name : String) (isReadOnly : Bool) (type : Ty) :
    Additive (declare name isReadOnly type) :=
  .of_run (fun s => (s.declare name isReadOnly type).1)
    (fun s => (s.declare name isReadOnly type).2) (fun _ => []) fun b => by
      simp only [List.append_nil]
      rfl

section Bind

variable (x : Binder α) (f : α → Binder β) (scopes : ScopeChain)

theorem run_bind : (x >>= f).run ⟨scopes, []⟩ =
    (f (x.result scopes)).run ⟨x.scopesAfter scopes, x.found scopes⟩ := rfl

variable [∀ a, Additive (f a)]

@[simp] theorem result_bind :
    (x >>= f).result scopes = (f (x.result scopes)).result (x.scopesAfter scopes) := by
  rw [result, run_bind, Additive.run_eq]

@[simp] theorem scopesAfter_bind :
    (x >>= f).scopesAfter scopes =
      (f (x.result scopes)).scopesAfter (x.scopesAfter scopes) := by
  rw [scopesAfter, run_bind, Additive.run_eq]

@[simp] theorem found_bind :
    (x >>= f).found scopes =
      x.found scopes ++ (f (x.result scopes)).found (x.scopesAfter scopes) := by
  rw [found, run_bind, Additive.run_eq]

end Bind

instance (x : Binder α) (f : α → Binder β) [Additive x] [∀ a, Additive (f a)] :
    Additive (x >>= f) where
  run_eq b := by
    have h : (x >>= f).run b = (f (x.run b).1).run (x.run b).2 := rfl
    rw [h, Additive.run_eq b, Additive.run_eq, result_bind, scopesAfter_bind, found_bind,
      List.append_assoc]

@[simp] theorem result_pure (a : α) (scopes : ScopeChain) :
    (pure a : Binder α).result scopes = a := rfl

@[simp] theorem found_pure (a : α) (scopes : ScopeChain) :
    (pure a : Binder α).found scopes = [] := rfl

instance (a : α) : Reads (pure a : Binder α) where
  scopesAfter_eq _ := rfl

@[simp] theorem found_report (span : Span) (fault : Fault) (scopes : ScopeChain) :
    (report span fault).found scopes = [⟨span, fault⟩] := rfl

instance (span : Span) (fault : Fault) : Reads (report span fault) where
  scopesAfter_eq _ := rfl

@[simp] theorem found_inScopes (f : ScopeChain → ScopeChain) (scopes : ScopeChain) :
    (inScopes f).found scopes = [] := rfl

@[simp] theorem scopesAfter_inScopes (f : ScopeChain → ScopeChain) (scopes : ScopeChain) :
    (inScopes f).scopesAfter scopes = f scopes := rfl

@[simp] theorem result_declare (name : String) (isReadOnly : Bool) (type : Ty)
    (scopes : ScopeChain) :
    (declare name isReadOnly type).result scopes = (scopes.declare name isReadOnly type).1 := rfl

@[simp] theorem found_declare (name : String) (isReadOnly : Bool) (type : Ty)
    (scopes : ScopeChain) : (declare name isReadOnly type).found scopes = [] := rfl

@[simp] theorem scopesAfter_declare (name : String) (isReadOnly : Bool) (type : Ty)
    (scopes : ScopeChain) :
    (declare name isReadOnly type).scopesAfter scopes =
      (scopes.declare name isReadOnly type).2 := rfl

instance (x : Binder α) (f : α → Binder β) [Reads x] [∀ a, Reads (f a)] : Reads (x >>= f) where
  scopesAfter_eq scopes := by simp

@[simp] theorem result_map (g : α → β) (x : Binder α) (scopes : ScopeChain) :
    (g <$> x).result scopes = g (x.result scopes) := rfl

@[simp] theorem found_map (g : α → β) (x : Binder α) (scopes : ScopeChain) :
    (g <$> x).found scopes = x.found scopes := rfl

@[simp] theorem scopesAfter_map (g : α → β) (x : Binder α) (scopes : ScopeChain) :
    (g <$> x).scopesAfter scopes = x.scopesAfter scopes := rfl

instance (g : α → β) (x : Binder α) [Additive x] : Additive (g <$> x) := by
  rw [map_eq_pure_bind]
  infer_instance

structure Yields (x : Binder α) (gives : ScopeChain → α) (finds : ScopeChain → List Diagnostic) :
    Prop where
  run_eq : ∀ b : Binding,
    x.run b = (gives b.scopes, ⟨b.scopes, b.diagnostics ++ finds b.scopes⟩)

namespace Yields

variable {x : Binder α} {gives : ScopeChain → α} {finds : ScopeChain → List Diagnostic}

theorem reads (h : Yields x gives finds) : Reads x where
  toAdditive := .of_run gives id finds h.run_eq
  scopesAfter_eq s := by rw [scopesAfter, h.run_eq]

theorem result_eq (h : Yields x gives finds) (scopes : ScopeChain) :
    x.result scopes = gives scopes := by rw [result, h.run_eq]

theorem found_eq (h : Yields x gives finds) (scopes : ScopeChain) :
    x.found scopes = finds scopes := by rw [found, h.run_eq]; rfl

end Yields

end Binder

end ScalarScript
