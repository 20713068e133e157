import ScalarScript.Scope.Symbol

/-!
Stores: the values of variables. The key is the whole variable: two that differ in their id, name,
type or in being read-only have values of their own.
-/

set_option autoImplicit false

namespace ScalarScript

/-- Each variable that has a value, once, with the value. -/
structure Store where
  entries : List (Variable × Value)
  deriving DecidableEq, Repr

namespace Store

def empty : Store := ⟨[]⟩

def get? (store : Store) (v : Variable) : Option Value :=
  (store.entries.find? fun entry => entry.1 = v).map Prod.snd

def insertInto (v : Variable) (value : Value) : List (Variable × Value) → List (Variable × Value)
  | [] => [(v, value)]
  | entry :: rest => if entry.1 = v then (v, value) :: rest else entry :: insertInto v value rest

def insert (store : Store) (v : Variable) (value : Value) : Store :=
  ⟨insertInto v value store.entries⟩

def precedes (v w : Variable) : Bool :=
  let order := (compare v.id.fragment w.id.fragment).then <|
    (compare v.id.index w.id.index).then <| (compare v.name w.name).then <|
    (compare v.isReadOnly.toNat w.isReadOnly.toNat).then <| compare v.type.name w.type.name
  order != .gt

def sorted (store : Store) : List (Variable × Value) :=
  store.entries.mergeSort fun a b => precedes a.1 b.1

theorem get?_insert_self (store : Store) (v : Variable) (value : Value) :
    (store.insert v value).get? v = some value := by
  obtain ⟨entries⟩ := store
  induction entries with
  | nil => simp [insert, insertInto, get?]
  | cons entry rest ih =>
    simp only [insert, insertInto, get?] at ih ⊢
    split
    · simp
    · rename_i h
      simpa [List.find?, h] using ih

theorem get?_insert_of_ne (store : Store) {v w : Variable} (value : Value) (h : w ≠ v) :
    (store.insert v value).get? w = store.get? w := by
  obtain ⟨entries⟩ := store
  induction entries with
  | nil => simp [insert, insertInto, get?, Ne.symm h]
  | cons entry rest ih =>
    simp only [insert, insertInto, get?] at ih ⊢
    split
    · rename_i hv
      simp [List.find?, hv, Ne.symm h]
    · by_cases hw : entry.1 = w
      · simp [List.find?, hw]
      · simpa [List.find?, hw] using ih

end Store

end ScalarScript
