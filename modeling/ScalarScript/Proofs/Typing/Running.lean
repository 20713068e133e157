import ScalarScript.Proofs.Running.Triple
import ScalarScript.Proofs.Typing.Typed

set_option autoImplicit false

namespace ScalarScript

inductive RunError.Regular : RunError → Prop where
  | unassignedVariable (name : String) : Regular (.unassignedVariable name)
  | divisionByZero : Regular .divisionByZero
  | invalidConversion (value target : String) : Regular (.invalidConversion value target)
  | negativeRandomBound (max : Int64) : Regular (.negativeRandomBound max)

def Store.Typed (store : Store) : Prop := ∀ entry ∈ store.entries, entry.2.ty = entry.1.type

theorem Store.typed_empty : Store.empty.Typed := by simp [Store.Typed, Store.empty]

theorem Store.mem_insertInto {v : Variable} {value : Value} {entries : List (Variable × Value)}
    {entry : Variable × Value} (h : entry ∈ insertInto v value entries) :
    entry = (v, value) ∨ entry ∈ entries := by
  induction entries with
  | nil => simpa [insertInto] using h
  | cons first rest ih =>
    unfold insertInto at h
    split at h
    · rcases List.mem_cons.mp h with h | h
      · exact .inl h
      · exact .inr (List.mem_cons_of_mem _ h)
    · rcases List.mem_cons.mp h with h | h
      · exact .inr (h ▸ List.mem_cons_self ..)
      · rcases ih h with h | h
        · exact .inl h
        · exact .inr (List.mem_cons_of_mem _ h)

theorem Store.Typed.insert {store : Store} (h : store.Typed) {v : Variable} {value : Value}
    (ht : value.ty = v.type) : (store.insert v value).Typed := by
  intro entry hmem
  rcases Store.mem_insertInto hmem with rfl | hmem
  · exact ht
  · exact h entry hmem

theorem Store.Typed.get? {store : Store} (h : store.Typed) {v : Variable} {value : Value}
    (hv : store.get? v = some value) : value.ty = v.type := by
  obtain ⟨entry, hentry, rfl⟩ := Option.map_eq_some_iff.mp hv
  have hmem := h entry (List.mem_of_find?_eq_some hentry)
  have hkey := List.find?_some hentry
  rw [hmem, of_decide_eq_true hkey]

section Values

theorem Value.eq_int_of_ty {value : Value} (h : value.ty = .int) : ∃ n, value = .int n := by
  cases value with
  | int n => exact ⟨n, rfl⟩
  | bool b => cases h
  | string s => cases h

theorem Value.eq_bool_of_ty {value : Value} (h : value.ty = .bool) : ∃ b, value = .bool b := by
  cases value with
  | int n => cases h
  | bool b => exact ⟨b, rfl⟩
  | string s => cases h

theorem Value.eq_string_of_ty {value : Value} (h : value.ty = .string) :
    ∃ s, value = .string s := by
  cases value with
  | int n => cases h
  | bool b => cases h
  | string s => exact ⟨s, rfl⟩

theorem UnaryOperator.apply_ok {token : TokenKind} {op : UnaryOperator} {operand : Value}
    (h : find? token operand.ty = some op) :
    ∃ value, op.operation.apply operand = .ok value ∧ value.ty = op.result := by
  unfold find? at h
  split at h <;> cases h
  case h_1 ht | h_2 ht =>
    obtain ⟨n, rfl⟩ := Value.eq_int_of_ty ht
    exact ⟨_, rfl, rfl⟩
  case h_3 ht =>
    obtain ⟨b, rfl⟩ := Value.eq_bool_of_ty ht
    exact ⟨_, rfl, rfl⟩

theorem BinaryOperation.apply_divide (l r : Int64) :
    (∃ value, apply .division (.int l) (.int r) = .ok value ∧ value.ty = .int) ∨
      apply .division (.int l) (.int r) = .error .divisionByZero := by
  rw [apply_division]
  by_cases h : r = 0
  · exact .inr (if_pos h)
  · exact .inl ⟨.int (l / r), if_neg h, rfl⟩

theorem BinaryOperator.apply_ok {token : TokenKind} {op : BinaryOperator} {left right : Value}
    (h : find? token left.ty right.ty = some op) :
    (∃ value, op.operation.apply left right = .ok value ∧ value.ty = op.result) ∨
      op.operation.apply left right = .error .divisionByZero := by
  have hm := (find?_eq_some h).2.2.2
  generalize op.operation = operation, op.result = result at hm ⊢
  have heq := (types_of_meaning? hm).1
  cases left with
  | int l =>
    obtain ⟨r, rfl⟩ := Value.eq_int_of_ty heq.symm
    simp only [Value.ty] at hm
    unfold meaning? at hm
    split at hm <;> first
      | contradiction
      | cases hm; exact BinaryOperation.apply_divide l r
      | cases hm; exact .inl ⟨_, rfl, rfl⟩
  | bool l =>
    obtain ⟨r, rfl⟩ := Value.eq_bool_of_ty heq.symm
    simp only [Value.ty] at hm
    unfold meaning? at hm
    split at hm <;> first
      | contradiction
      | cases hm; cases l <;> exact .inl ⟨_, rfl, rfl⟩
  | string l =>
    obtain ⟨r, rfl⟩ := Value.eq_string_of_ty heq.symm
    simp only [Value.ty] at hm
    unfold meaning? at hm
    split at hm <;> first
      | contradiction
      | cases hm; exact .inl ⟨_, rfl, rfl⟩

theorem Value.convert_ok {value : Value} {target : Ty}
    (h : Conversion.classify value.ty target = .explicit) :
    (∃ converted, value.convert target = .ok converted ∧ converted.ty = target) ∨
      value.convert target = .error (.invalidConversion value.text target.name) := by
  cases value with
  | int n => cases target <;> first | exact .inl ⟨_, rfl, rfl⟩ | cases h
  | bool b => cases target <;> first | exact .inl ⟨_, rfl, rfl⟩ | cases h
  | string s =>
    cases target with
    | int =>
      cases hn : Text.int64OfNumeral? (Text.trim s.toList) <;> simp [convert, hn, Value.ty]
    | bool => cases hb : Text.boolOfWord? (Text.trim s.toList) <;> simp [convert, hb, Value.ty]
    | error => cases h
    | string => cases h
    | void => cases h

end Values

namespace Eval

/-- The step keeps the store well typed, gives what `post` says, and halts in no irregular way. -/
def Safe {α : Type} (x : Eval α) (post : α → Prop) : Prop :=
  Ensures (fun m => m.store.Typed) x (fun a m => post a ∧ m.store.Typed)
    (fun halt m => (∀ e, halt = .failed e → e.Regular) ∧ m.store.Typed)

variable {α β : Type}

theorem safe_pure {a : α} {post : α → Prop} (h : post a) : Safe (pure a) post :=
  ensures_pure fun _ hm => ⟨h, hm⟩

theorem safe_fail {error : RunError} {post : α → Prop} (h : error.Regular) :
    Safe (fail error) post :=
  ensures_fail fun _ hm => ⟨fun e he => by cases he; exact h, hm⟩

theorem Safe.bind {x : Eval α} {f : α → Eval β} {mid : α → Prop} {post : β → Prop}
    (hx : Safe x mid) (hf : ∀ a, mid a → Safe (f a) post) : Safe (x >>= f) post :=
  Ensures.bind hx fun a m hm => hf a hm.1 m hm.2

theorem safe_lift {result : Except RunError α} {post : α → Prop}
    (h : (∃ a, result = .ok a ∧ post a) ∨ ∃ error, result = .error error ∧ error.Regular) :
    Safe (lift result) post := by
  rcases h with ⟨a, hr, ha⟩ | ⟨error, hr, he⟩
  · exact ensures_lift_ok hr fun _ hm => ⟨ha, hm⟩
  · exact ensures_lift_error hr fun _ hm => ⟨fun e heq => by cases heq; exact he, hm⟩

theorem safe_load (v : Variable) : Safe (load v) fun value => value.ty = v.type :=
  ensures_load v (fun _ _ hm hv => ⟨hm.get? hv, hm⟩)
    fun _ hm _ => ⟨fun _ he => by cases he; exact .unassignedVariable v.name, hm⟩

theorem safe_save {v : Variable} {value : Value} (h : value.ty = v.type) :
    Safe (save v value) fun _ => True :=
  ensures_save v value fun _ hm => ⟨trivial, hm.insert h⟩

theorem safe_of_ok {x : Eval α} {post : α → Prop}
    (h : ∀ m, ∃ a m', x m = (.ok a, m') ∧ m'.store = m.store ∧ post a) : Safe x post := by
  intro m hm
  obtain ⟨a, m', hx, hs, ha⟩ := h m
  rw [hx]
  exact ⟨ha, hs ▸ hm⟩

/-- What a term of a type may give: a value of the type, or none if it is `void`. -/
def Gives (type : Ty) (o : Option Value) : Prop :=
  (o = none ∧ type = .void) ∨ ∃ value, o = some value ∧ value.ty = type

theorem Safe.value {x : Eval (Option Value)} {type : Ty} (hx : Safe x (Gives type))
    (hv : type ≠ .void) : Safe (value x) fun value => value.ty = type := by
  refine Ensures.value (hx.mono (fun _ hm => hm) ?_)
  rintro o m ⟨hgives, hm⟩
  rcases hgives with ⟨-, hvoid⟩ | ⟨value, rfl, ht⟩
  · exact absurd hvoid hv
  · exact ⟨value, rfl, ht, hm⟩

theorem Safe.int {x : Eval (Option Value)} (hx : Safe x (Gives .int)) :
    Safe (int x) fun _ => True := by
  refine (hx.value (by decide)).bind fun value ht => ?_
  obtain ⟨n, rfl⟩ := Value.eq_int_of_ty ht
  exact safe_lift (.inl ⟨n, rfl, trivial⟩)

theorem Safe.bool {x : Eval (Option Value)} (hx : Safe x (Gives .bool)) :
    Safe (bool x) fun _ => True := by
  refine (hx.value (by decide)).bind fun value ht => ?_
  obtain ⟨b, rfl⟩ := Value.eq_bool_of_ty ht
  exact safe_lift (.inl ⟨b, rfl, trivial⟩)

theorem safe_generator : Safe generator fun _ => True := by
  refine safe_of_ok fun m => ?_
  unfold generator
  split <;> exact ⟨_, _, rfl, rfl, trivial⟩

theorem safe_randomBelow (bound : Int64) : Safe (randomBelow bound) fun _ => True := by
  unfold randomBelow
  split
  · exact safe_fail (.negativeRandomBound bound)
  · split
    · exact safe_pure trivial
    · exact safe_generator.bind fun g _ => safe_of_ok fun m => ⟨_, _, rfl, rfl, trivial⟩

theorem safe_read (first : Option (Eval (Option Value))) :
    Safe (call .read first) (Gives Function.read.result) :=
  (safe_of_ok fun _ => ⟨_, _, rfl, rfl, trivial⟩ : Safe readLine fun _ => True).bind
    fun line _ => safe_pure (.inr ⟨.string line, rfl, rfl⟩)

theorem safe_write {argument : Eval (Option Value)} (ha : Safe argument (Gives .string)) :
    Safe (call .write (some argument)) (Gives Function.write.result) := by
  refine (ha.value (by decide)).bind fun value ht => ?_
  obtain ⟨s, rfl⟩ := Value.eq_string_of_ty ht
  have hwrite : Safe (writeLine s) fun _ => True :=
    safe_of_ok fun _ => ⟨_, _, rfl, rfl, trivial⟩
  exact hwrite.bind fun _ _ => safe_pure (.inl ⟨rfl, rfl⟩)

theorem safe_rnd {argument : Eval (Option Value)} (ha : Safe argument (Gives .int)) :
    Safe (call .rnd (some argument)) (Gives Function.rnd.result) :=
  ha.int.bind fun bound _ => (safe_randomBelow bound).bind fun n _ =>
    safe_pure (.inr ⟨.int n, rfl, rfl⟩)

end Eval

open Eval

theorem Term.Typed.safe_evaluate {t : Term} (h : t.Typed False) :
    Safe t.evaluate (Gives t.type) := by
  induction h with
  | literal value => exact safe_pure (.inr ⟨value, rfl, rfl⟩)
  | «variable» hv => exact (safe_load _).bind fun value ht => safe_pure (.inr ⟨value, rfl, ht⟩)
  | @assignment v source hv hs value agree excused ih =>
    have hst : source.type = v.type := Decidable.byContradiction agree
    refine (ih.value value).bind fun x ht => ?_
    exact (safe_save (ht.trans hst)).bind fun _ _ => safe_pure (.inr ⟨x, rfl, ht.trans hst⟩)
  | @unary token op operand ho found ih =>
    have hop := UnaryOperator.find?_eq_some found
    have hv : operand.type ≠ .void := by rcases hop.2.2 with h | h <;> simp [h]
    refine (ih.value hv).bind fun x ht => ?_
    have happly := UnaryOperator.apply_ok (ht ▸ found)
    exact (safe_lift (.inl happly)).bind fun y hy => safe_pure (.inr ⟨y, rfl, hy⟩)
  | @binary token op left right hl hr found ihl ihr =>
    have hm := BinaryOperator.types_of_meaning? (BinaryOperator.find?_eq_some found).2.2.2
    refine (ihl.value hm.2.1).bind fun x hx => (ihr.value (hm.1 ▸ hm.2.1)).bind fun y hy => ?_
    have happly := BinaryOperator.apply_ok (hx ▸ hy ▸ found)
    have hsafe : Safe (lift (op.operation.apply x y)) fun value => value.ty = op.result :=
      safe_lift (happly.imp id fun h => ⟨_, h, .divisionByZero⟩)
    exact hsafe.bind fun z hz => safe_pure (.inr ⟨z, rfl, hz⟩)
  | @call f arguments hf ha agree ih =>
    simp only [Function.builtins, List.mem_cons, List.not_mem_nil, or_false] at hf
    rcases hf with rfl | rfl | rfl
    · cases arguments with
      | nil => exact safe_read none
      | cons first rest => exact safe_read _
    · cases arguments with
      | nil => cases agree
      | cons first rest =>
        have ht : first.type = .string := (List.cons.inj agree).1
        exact safe_write (ht ▸ ih first (List.mem_cons_self ..))
    · cases arguments with
      | nil => cases agree
      | cons first rest =>
        have ht : first.type = .int := (List.cons.inj agree).1
        exact safe_rnd (ht ▸ ih first (List.mem_cons_self ..))
  | @conversion target source hs found ih =>
    have hv := (Conversion.classify_explicit found).2.1
    refine (ih.value hv).bind fun x hx => ?_
    have hconvert := Value.convert_ok (hx ▸ found)
    have hsafe : Safe (lift (x.convert target)) fun value => value.ty = target :=
      safe_lift (hconvert.imp id fun h => ⟨_, h, .invalidConversion ..⟩)
    exact hsafe.bind fun z hz => safe_pure (.inr ⟨z, rfl, hz⟩)
  | error excuse => exact excuse.elim

theorem Action.safe_runAll {rounds : Nat} {actions : List Action}
    (h : ∀ a ∈ actions, Safe (a.run rounds) fun _ => True) :
    Safe (Action.runAll rounds actions) fun _ => True := by
  induction actions with
  | nil => exact safe_pure trivial
  | cons a rest ih =>
    have ha := h a (List.mem_cons_self ..)
    exact ha.bind fun _ _ => ih fun b hb => h b (List.mem_cons_of_mem _ hb)

theorem Eval.safe_conclude (value : Option Value) : Safe (conclude value) fun _ => True :=
  safe_of_ok fun _ => ⟨_, _, rfl, rfl, trivial⟩

theorem Term.Typed.safe_of_type {t : Term} {type : Ty} (h : t.Typed False)
    (ht : t.type ≠ type → False) : Safe t.evaluate (Gives type) :=
  Decidable.byContradiction ht ▸ h.safe_evaluate

/-- A well typed action runs safely. -/
theorem Action.Typed.safe_run {a : Action} (h : a.Typed False) (rounds : Nat) :
    Safe (a.run rounds) fun _ => True := by
  induction h with
  | block ha ih => exact Action.safe_runAll ih
  | declaration hi value agree =>
    refine (hi.safe_evaluate.value value).bind fun x hx => ?_
    exact (safe_save (hx.trans agree)).bind fun _ _ => safe_conclude _
  | ifThen hc value bool ht ih =>
    refine (hc.safe_of_type bool).bool.bind fun b _ => ?_
    cases b with
    | true => exact ih
    | false => exact safe_pure trivial
  | ifThenElse hc value bool ht he iht ihe =>
    refine (hc.safe_of_type bool).bool.bind fun b _ => ?_
    cases b with
    | true => exact iht
    | false => exact ihe
  | whileLoop hc value bool hb ih =>
    have hcond := (hc.safe_of_type bool).bool
    have hloop := ensures_repeatWhile (hcond.mono (fun _ hm => hm) fun _ _ h => h.2)
      (ih.mono (fun _ hm => hm) fun _ _ h => h.2) (fun _ hm => ⟨by simp, hm⟩) rounds
    exact hloop.mono (fun _ hm => hm) fun _ _ hm => ⟨trivial, hm⟩
  | @forLoop v lower upper body hv hl lowerValue lowerInt hu upperValue upperInt hb ih =>
    refine (hl.safe_of_type lowerInt).int.bind fun first _ => ?_
    refine (hu.safe_of_type upperInt).int.bind fun last _ => ?_
    have hset (m : Machine) (n : Int64) (hm : m.store.Typed) :
        (m.store.insert v (.int n)).Typed := hm.insert hv.symm
    have hloop := ensures_countUp hset (ih.mono (fun _ hm => hm) fun _ _ h => h.2)
      (rangeLength first last) first
    exact hloop.mono (fun _ hm => hm) fun _ _ hm => ⟨trivial, hm⟩
  | expression ht => exact ht.safe_evaluate.bind fun o _ => safe_conclude o

end ScalarScript
