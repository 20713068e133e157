import ScalarScript.Proofs.Binding.Causes
import ScalarScript.Proofs.Session.Histories
import ScalarScript.Proofs.Token.Faults

set_option autoImplicit false

namespace ScalarScript

def Span.Shows (text : String) (s : Span) : Prop := s.FitsIn text ∧ s.isEmpty = false

namespace Node

variable {text : String} {n : Node}

theorem Nests.shows_token {t : Token} (h : (token t).Nests text) (ht : t.isMissing = false) :
    t.span.Shows text := by
  refine ⟨h.fits, beq_eq_false_iff_ne.mpr fun hlength => ?_⟩
  have hslice := h.slice t rfl
  rw [Span.slice_of_length_eq_zero hlength] at hslice
  simp [Token.isMissing, ← hslice] at ht

theorem Nests.shows (h : n.Nests text) {p : Node} (hp : p ∈ n.parts) (hs : p.span.Shows text) :
    n.span.Shows text := by
  obtain ⟨hstart, hstop⟩ := h.covers p hp
  have hlength : p.span.length ≠ 0 := beq_eq_false_iff_ne.mp hs.2
  refine ⟨h.fits, beq_eq_false_iff_ne.mpr ?_⟩
  unfold Span.stop at hstop
  omega

theorem mem_parts_of_heads {e : Expression} {t : Token} (h : t ∈ e.heads) :
    .token t ∈ (expression e).parts := by
  cases e <;> simp only [Expression.heads, List.mem_cons, List.not_mem_nil, or_false] at h <;>
    rcases h with rfl | rfl <;> simp [parts]

theorem exists_present {e : Expression} (h : (expression e).Firm) (he : e.isNothing = false) :
    ∃ t, .token t ∈ (expression e).parts ∧ t.isMissing = false := by
  cases hheads : e.heads with
  | nil =>
    cases e with
    | name t => exact ⟨t, by simp [parts], he⟩
    | _ => cases hheads
  | cons t ts =>
    have ht : t ∈ e.heads := by simp [hheads]
    exact ⟨t, mem_parts_of_heads ht, h t ht⟩

theorem All.marks (h : n.All fun m => m.Nests text ∧ m.Firm) : n.All (Marks (Span.Shows text)) := by
  refine h.imp fun m hm => ?_
  have htoken {t : Token} (ht : .token t ∈ m.parts) (hpresent : t.isMissing = false) :
      t.span.Shows text := (hm.part ht).here.1.shows_token hpresent
  cases m with
  | expression e =>
    refine ⟨fun t ht => htoken (mem_parts_of_heads ht) (hm.here.2 t ht), fun he => ?_⟩
    obtain ⟨t, ht, hpresent⟩ := exists_present hm.here.2 he
    exact hm.here.1.shows ht (htoken ht hpresent)
  | statement s =>
    cases s with
    | declaration => exact htoken (by simp [parts])
    | _ => trivial
  | _ => trivial

end Node

namespace Fragment

variable {text : String}

theorem diagnostics_lie_in {d : Diagnostic} (hd : d ∈ (ofText text).diagnostics) :
    d.span.FitsIn text ∧ d.fault.kind.isSyntactic = true := by
  obtain ⟨c, htree, heq⟩ := exists_read text
  rw [heq] at hd
  rcases List.mem_append.mp hd with hd | hd
  · exact Lexeme.diagnostics_lie_in hd
  · exact ((Cursor.LiesIn.ofText text).steps htree.steps).noted d hd

theorem marked_bind (text : String) (scopes : ScopeChain) :
    Marked (Span.Shows text) ((ofText text).tree.statement.bind.found scopes) := by
  have hstatement := (all_nests text).part (p := .statement (ofText text).tree.statement)
    (by simp [Node.parts])
  exact Statement.marked_bind scopes _ hstatement.marks

theorem isEmpty_of_isMissing {t : Token} (ht : t ∈ (ofText text).tree.tokens)
    (hmissing : t.isMissing = true) : t.span.isEmpty = true :=
  (all_nests text _ (Tree.contains_token ht)).2 hmissing

end Fragment

namespace Session

/-- The diagnostics of a submission lie in its text. Those of its lexemes and their order come
first, then those of its meaning; none of the latter lies where a token is missing, as something
stands where they lie. -/
theorem diagnostics_located {s : Session} (h : s.Reachable) {rounds : Nat} {text : String}
    {e : Evaluation} (he : (s.submit rounds text).1 = .ok e) :
    (∀ d ∈ e.diagnostics, d.span.FitsIn text) ∧
      ∃ reading meaning, e.diagnostics = reading ++ meaning ∧
        (∀ d ∈ reading, d.fault.kind.isSyntactic = true) ∧
        ∀ d ∈ meaning, d.fault.kind.isSyntactic = false ∧ d.span.isEmpty = false ∧
          ∀ t ∈ (Fragment.ofText text).tree.tokens, t.isMissing = true → d.span ≠ t.span := by
  have hdiagnostics := h.faultless.diagnostics_compile (.ofText text)
  rw [← diagnostics_of_run he] at hdiagnostics
  have hmeaning := Fragment.marked_bind text (Snapshot.surroundings s.snapshots)
  refine ⟨fun d hd => ?_, _, _, hdiagnostics, fun d hd => (Fragment.diagnostics_lie_in hd).2,
    fun d hd => ⟨(hmeaning d hd).2, (hmeaning d hd).1.2, fun t ht hmissing heq => ?_⟩⟩
  · rw [hdiagnostics] at hd
    rcases List.mem_append.mp hd with hd | hd
    · exact (Fragment.diagnostics_lie_in hd).1
    · exact (hmeaning d hd).1.1
  · have hempty := Fragment.isEmpty_of_isMissing ht hmissing
    rw [← heq, (hmeaning d hd).1.2] at hempty
    cases hempty

def unfinished : Evaluation :=
  ⟨[⟨⟨5, 1⟩, .badCharacter '#'⟩,
    ⟨⟨8, 0⟩, .unexpectedToken TokenKind.endOfFile.name TokenKind.identifier.name⟩,
    ⟨⟨8, 0⟩, .unexpectedToken TokenKind.endOfFile.name TokenKind.closeParen.name⟩,
    ⟨⟨0, 2⟩, .undefinedName "é"⟩], none⟩

theorem diagnostics_located_unfinished :
    ((start (.ofLines []) none).submit 1 "é + # (").1 = .ok unfinished ∧
      (∀ d ∈ unfinished.diagnostics, d.span.FitsIn "é + # (") ∧
      ∃ reading meaning, unfinished.diagnostics = reading ++ meaning ∧
        (∀ d ∈ reading, d.fault.kind.isSyntactic = true) ∧
        ∀ d ∈ meaning, d.fault.kind.isSyntactic = false ∧ d.span.isEmpty = false ∧
          ∀ t ∈ (Fragment.ofText "é + # (").tree.tokens, t.isMissing = true → d.span ≠ t.span := by
  have hstart : (start (.ofLines []) none).Reachable := .start _ _
  have hsubmit : ((start (.ofLines []) none).submit 1 "é + # (").1 = .ok unfinished := by rfl
  exact ⟨hsubmit, diagnostics_located hstart hsubmit⟩

end Session

end ScalarScript
