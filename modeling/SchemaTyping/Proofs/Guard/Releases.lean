import SchemaTyping.Proofs.Guard.Texts

/-!
# Entries and releases

Entries and releases of a stack are paired from the inside: a release belongs to the last entry
that is still there. So an entry stays as long as what follows it never has more releases than
entries. If no text is entered that is on the stack, the stack holds exactly the texts whose
entries stay, and what it counts for a name is no less than the uses of the name among them.
-/

namespace SchemaTyping

namespace UseStack

/-- What is done to a stack. -/
inductive Operation where
  | enter (text : String)
  | release
deriving DecidableEq

/-- Is a text entered? -/
def Operation.isEnter : Operation → Bool
  | enter _ => true
  | release => false

/-- The stack after one more operation. -/
def apply (stack : UseStack) : Operation → UseStack
  | .enter text => stack.enterNew text
  | .release => stack.release

/-- The stack after a row of operations. -/
def after (stack : UseStack) (operations : List Operation) : UseStack :=
  operations.foldl apply stack

/-- Is no text entered that is on the stack at that time? -/
def entersNew : UseStack → List Operation → Bool
  | _, [] => true
  | stack, .enter text :: rest => text ∉ stack && entersNew (stack.enterNew text) rest
  | stack, .release :: rest => entersNew stack.release rest

variable {operations : List Operation}

lemma after_concat (stack : UseStack) (operations : List Operation) (operation : Operation) :
    stack.after (operations ++ [operation]) = (stack.after operations).apply operation := by
  rw [after, List.foldl_concat, after]

lemma entersNew_append (stack : UseStack) (operations later : List Operation) :
    stack.entersNew (operations ++ later) =
      (stack.entersNew operations && (stack.after operations).entersNew later) := by
  induction operations generalizing stack with
  | nil => simp [entersNew, after]
  | cons operation rest ih =>
    cases operation with
    | enter text => simp [entersNew, after, apply, ih, Bool.and_assoc]
    | release => simp [entersNew, after, apply, ih]

/-! ### What has not been released -/

/-- An entry stays if no beginning of what follows it has more releases than entries. -/
def Stays (later : List Operation) : Prop :=
  ∀ part, part <+: later → part.count .release ≤ part.countP Operation.isEnter

/-- How many entries before a row of operations are released in it. -/
def releasedBefore : List Operation → Nat
  | [] => 0
  | .enter _ :: rest => releasedBefore rest - 1
  | .release :: rest => releasedBefore rest + 1

lemma forall_prefix_cons {α : Type} {P : List α → Prop} {first : α} {rest : List α} :
    (∀ part, part <+: first :: rest → P part) ↔
      P [] ∧ ∀ part, part <+: rest → P (first :: part) := by
  simp only [List.prefix_cons_iff, or_imp, forall_and, forall_eq, forall_exists_index, and_imp]
  exact and_congr_right fun _ => ⟨fun h part => h _ part rfl, fun h _ part heq => heq ▸ h part⟩

lemma releasedBefore_le_iff (operations : List Operation) (limit : Nat) :
    releasedBefore operations ≤ limit ↔ ∀ part, part <+: operations →
      part.count .release ≤ part.countP Operation.isEnter + limit := by
  induction operations generalizing limit with
  | nil => simp [releasedBefore]
  | cons operation rest ih =>
    rw [forall_prefix_cons]
    cases operation with
    | enter text =>
      have hcount (part : List Operation) :
          (Operation.enter text :: part).countP Operation.isEnter =
            part.countP Operation.isEnter + 1 := List.countP_cons_of_pos rfl
      have hnone (part : List Operation) : (Operation.enter text :: part).count .release =
          part.count .release := List.count_cons_of_ne (by simp)
      simp only [releasedBefore, Nat.sub_le_iff_le_add, ih, hcount, hnone, List.count_nil,
        Nat.zero_le, true_and, Nat.add_assoc, Nat.add_comm limit 1]
    | release =>
      have hcount (part : List Operation) : (Operation.release :: part).countP Operation.isEnter =
          part.countP Operation.isEnter := List.countP_cons_of_neg Bool.false_ne_true
      simp only [releasedBefore, hcount, List.count_cons_self, List.count_nil, Nat.zero_le,
        true_and]
      cases limit with
      | zero => exact iff_of_false nofun fun h => absurd (h [] List.nil_prefix) nofun
      | succ limit => simp only [Nat.add_le_add_iff_right, ih, ← Nat.add_assoc]

lemma stays_iff (later : List Operation) : Stays later ↔ releasedBefore later = 0 := by
  simpa [Stays] using (releasedBefore_le_iff later 0).symm

instance (later : List Operation) : Decidable (Stays later) :=
  decidable_of_iff _ (stays_iff later).symm

/-- The texts that have been entered and not released, in the order of their entries. -/
def unreleased : List Operation → List String
  | [] => []
  | .enter text :: later => if Stays later then text :: unreleased later else unreleased later
  | .release :: later => unreleased later

lemma releasedBefore_concat_enter (operations : List Operation) (text : String) :
    releasedBefore (operations ++ [.enter text]) = releasedBefore operations := by
  induction operations with
  | nil => rfl
  | cons operation rest ih => cases operation <;> simp [releasedBefore, ih]

/-- One more release releases an entry before a row of operations if none in the row stays, and else
one in the row. -/
lemma releasedBefore_concat_release (operations : List Operation) :
    unreleased operations = [] ∧
        releasedBefore (operations ++ [.release]) = releasedBefore operations + 1 ∨
      unreleased operations ≠ [] ∧
        releasedBefore (operations ++ [.release]) = releasedBefore operations := by
  induction operations with
  | nil => exact .inl ⟨rfl, rfl⟩
  | cons operation rest ih =>
    cases operation with
    | release =>
      simp only [List.cons_append, releasedBefore, unreleased]
      exact ih.imp (And.imp_right fun h => by rw [h]) (And.imp_right fun h => by rw [h])
    | enter text =>
      simp only [List.cons_append, releasedBefore, unreleased]
      by_cases hstays : Stays rest
      · have hnone := (stays_iff rest).1 hstays
        rw [if_pos hstays]
        refine .inr ⟨List.cons_ne_nil _ _, ?_⟩
        rcases ih with ⟨-, hcount⟩ | ⟨-, hcount⟩ <;> omega
      · have hsome := mt (stays_iff rest).2 hstays
        rw [if_neg hstays]
        refine ih.imp (And.imp_right fun hcount => ?_) (And.imp_right fun hcount => ?_) <;> omega

lemma unreleased_concat_enter (operations : List Operation) (text : String) :
    unreleased (operations ++ [.enter text]) = unreleased operations ++ [text] := by
  induction operations with
  | nil => rfl
  | cons operation rest ih =>
    cases operation with
    | release => exact ih
    | enter other =>
      simp only [List.cons_append, unreleased, stays_iff, releasedBefore_concat_enter, ih]
      split <;> simp

/-- One more release takes away the last entry that stays. -/
lemma unreleased_concat_release (operations : List Operation) :
    unreleased (operations ++ [.release]) = (unreleased operations).dropLast := by
  induction operations with
  | nil => rfl
  | cons operation rest ih =>
    cases operation with
    | release => exact ih
    | enter text =>
      simp only [List.cons_append, unreleased, stays_iff, ih]
      rcases releasedBefore_concat_release rest with ⟨hnone, hcount⟩ | ⟨hsome, hcount⟩
      · simp [hcount, hnone, apply_ite List.dropLast]
      · simp [hcount, apply_ite List.dropLast, List.dropLast_cons_of_ne_nil hsome]

/-! ### The stack -/

/-- The stack holds the texts that have not been released, the last one on top, and none twice. -/
lemma entries_after (h : (∅ : UseStack).entersNew operations) :
    ((∅ : UseStack).after operations).entries = (unreleased operations).reverse ∧
      (unreleased operations).Nodup := by
  induction operations using List.reverseRecOn with
  | nil => exact ⟨rfl, List.nodup_nil⟩
  | append_singleton operations operation ih =>
    rw [entersNew_append, Bool.and_eq_true] at h
    obtain ⟨hbefore, hlast⟩ := h
    rw [after_concat]
    cases operation with
    | enter text =>
      have hnew : text ∉ (∅ : UseStack).after operations := by simpa [entersNew] using hlast
      obtain ⟨hentries, hnodup⟩ := ih hbefore
      have hfresh : text ∉ unreleased operations := by
        rwa [mem_iff, hentries, List.mem_reverse] at hnew
      rw [apply, enterNew_of_notMem hnew, entries_enter, hentries, unreleased_concat_enter]
      refine ⟨by simp, ?_⟩
      exact List.nodup_append'.2 ⟨hnodup, List.nodup_singleton text, by simpa using hfresh⟩
    | release =>
      obtain ⟨hentries, hnodup⟩ := ih hbefore
      rw [unreleased_concat_release, apply, release, hentries, List.tail_reverse]
      exact ⟨rfl, hnodup.sublist (List.dropLast_sublist _)⟩

/-- As long as no text is entered that is on the stack, entries and releases leave exactly the texts
on the stack that have been entered and not released, in the order of their entries and without
repetitions. If they are the texts of declared uses, the stack counts no less uses of a name than
there are among them, whatever their arguments, and exactly as many if there is no `<` in the name
and in the names of the uses. -/
theorem unreleased_entries_on_stack {operations : List Operation}
    (h : (∅ : UseStack).entersNew operations) :
    ((∅ : UseStack).after operations).entries = (unreleased operations).reverse ∧
      (unreleased operations).Nodup ∧
      (∀ text, text ∈ (∅ : UseStack).after operations ↔ text ∈ unreleased operations) ∧
      ∀ uses : List TypeUse, unreleased operations = uses.map TypeUse.text →
        (∀ use ∈ uses, use.declaredName?.isSome) → ∀ name,
          uses.countP (·.declaredName? = some name) ≤
            ((∅ : UseStack).after operations).usesOf name ∧
          ('<' ∉ name.toList → (∀ use ∈ uses, ∀ other ∈ use.declaredName?, '<' ∉ other.toList) →
            ((∅ : UseStack).after operations).usesOf name =
              uses.countP (·.declaredName? = some name)) := by
  obtain ⟨hentries, hnodup⟩ := entries_after h
  refine ⟨hentries, hnodup, fun text => ?_, fun uses hunreleased hdeclared name => ?_⟩
  · rw [mem_iff, hentries, List.mem_reverse]
  · have htexts : ((∅ : UseStack).after operations).entries =
        uses.reverse.map TypeUse.text := by
      rw [hentries, hunreleased, List.map_reverse]
    rw [← List.countP_reverse]
    constructor
    · apply countP_le_usesOf
      rw [htexts, List.append_nil]
    · intro hname hnames
      apply usesOf_eq_countP htexts hname
      intro use huse
      rw [List.mem_reverse] at huse
      obtain ⟨other, hother⟩ := Option.isSome_iff_exists.1 (hdeclared use huse)
      exact ⟨other, hother, hnames use huse other hother⟩

/-- While `L<L<S>>`, `L<S>` and `Ls` are entered, and `X` has been released, two uses of `L` are
counted. -/
theorem nested_lists_counted :
    let operations : List Operation :=
      [.enter "L<L<S>>", .enter "X", .release, .enter "L<S>", .enter "Ls"]
    (∅ : UseStack).entersNew operations ∧
      ((∅ : UseStack).after operations).entries = ["Ls", "L<S>", "L<L<S>>"] ∧
      ("L<S>" ∈ (∅ : UseStack).after operations ∧ "X" ∉ (∅ : UseStack).after operations) ∧
      ((∅ : UseStack).after operations).usesOf "L" = 2 := by
  intro operations
  have hnew : (∅ : UseStack).entersNew operations := by decide
  have hunreleased : unreleased operations = ["L<L<S>>", "L<S>", "Ls"] := by decide
  obtain ⟨hentries, -, hmem, huses⟩ := unreleased_entries_on_stack hnew
  obtain ⟨-, hcount⟩ := huses
    [.declared "L" [.declared "L" [.declared "S" []]], .declared "L" [.declared "S" []],
      .declared "Ls" []] (by rw [hunreleased]; decide) (by decide) "L"
  rw [hunreleased] at hentries
  refine ⟨hnew, hentries, ⟨?_, ?_⟩, ?_⟩
  · rw [hmem, hunreleased]
    decide
  · rw [hmem, hunreleased]
    decide
  · rw [hcount (by decide) (by decide)]
    rfl

/-- A text that is entered while it is on the stack is not put there again, so the release takes
away the entry that was there before. -/
example : (((∅ : UseStack).enterNew "L").enterNew "L").release = ∅ := by decide

end UseStack

end SchemaTyping
