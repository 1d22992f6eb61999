import SqlAssembly.Assoc.Lemmas
import SqlAssembly.GraphQL.Reader
import SqlAssembly.Request.Selection

/-!
# Expansion of fragments

An expansion turns a selection set into a `Selection`: every fragment, written in place or spread by
its name, gives way to its fields, and `__typename` is left out with all that stands under it. A
spread of a fragment that is not defined, or that is being expanded already, is a fault.

* `SelectionSet.collect` expands a set and keeps a stack of the fragments being expanded: a spread
  enters its fragment on the stack, and takes it off after the fragment's own set.
* `Expanded stack` is what this comes to. The stack is left as it was found, which is part of the
  type.
* `SelectionSet.expand` is the result alone.

The expansion ends because the fragments being expanded are distinct names of fragments: each spread
leaves one fewer, and between spreads the selection set becomes smaller.
-/

namespace SqlAssembly

namespace GraphQL

/-- The names of the fragments that are not being expanded. -/
def idle (fragments : Assoc SelectionSet) (expanding : List String) : List String :=
  fragments.keys.filter fun name => !expanding.contains name

/-- Expanding one more fragment leaves fewer that are not being expanded. -/
theorem length_idle_cons_lt {fragments : Assoc SelectionSet} {expanding : List String}
    {name : String} {body : SelectionSet} (h : fragments.get? name = some body)
    (hn : expanding.contains name = false) :
    (idle fragments (name :: expanding)).length < (idle fragments expanding).length := by
  have hm : name ∈ idle fragments expanding :=
    List.mem_filter.2 ⟨Assoc.mem_keys_of_get? h, by rw [hn]; rfl⟩
  have he : idle fragments (name :: expanding) =
      (idle fragments expanding).filter fun other => !(other == name) := by
    unfold idle
    rw [List.filter_filter]
    congr 1
    funext other
    simp only [List.contains_cons, Bool.not_or]
  rw [he]
  exact List.length_filter_lt_length_iff_exists.2 ⟨name, hm, by simp⟩

/-- What an expansion comes to that begins while the fragments of `stack` are being expanded, the
innermost first. -/
structure Expanded (stack : List String) where
  result : Except Fault Selection
  /-- The fragments that are being expanded at the end. -/
  left : List String
  /-- Whatever was entered has been left, be there a selection or a fault. -/
  left_eq : left = stack

namespace Expanded

variable {stack : List String}

/-- An expansion that enters nothing. -/
def done (result : Except Fault Selection) : Expanded stack := ⟨result, stack, rfl⟩

/-- Goes on behind a selection, with the fragments that its expansion left. -/
def andThen (x : Expanded stack)
    (f : Selection → (left : List String) → left = stack → Expanded left) : Expanded stack :=
  match x.result with
  | .ok s =>
    let y := f s x.left x.left_eq
    ⟨y.result, y.left, y.left_eq.trans x.left_eq⟩
  | .error e => ⟨.error e, x.left, x.left_eq⟩

/-- Changes the selection. -/
def map (f : Selection → Selection) (x : Expanded stack) : Expanded stack :=
  ⟨f <$> x.result, x.left, x.left_eq⟩

/-- Takes the innermost fragment off the stack. -/
def leave {name : String} (x : Expanded (name :: stack)) : Expanded stack :=
  ⟨x.result, x.left.tail, by rw [x.left_eq, List.tail_cons]⟩

@[simp] theorem result_done (result : Except Fault Selection) :
    (done result : Expanded stack).result = result := rfl

@[simp] theorem result_map (f : Selection → Selection) (x : Expanded stack) :
    (x.map f).result = f <$> x.result := rfl

@[simp] theorem result_leave {name : String} (x : Expanded (name :: stack)) :
    x.leave.result = x.result := rfl

/-- What goes on behind a selection may take the stack for the one of the beginning. -/
theorem result_andThen (x : Expanded stack)
    (f : Selection → (left : List String) → Expanded left) :
    (x.andThen fun s left _ => f s left).result = x.result >>= fun s => (f s stack).result := by
  obtain ⟨result, left, rfl⟩ := x
  cases result <;> rfl

end Expanded

/-- Expands a selection set while the fragments of `stack` are being expanded. -/
def SelectionSet.collect (fragments : Assoc SelectionSet) (stack : List String)
    (set : SelectionSet) : Expanded stack :=
  match set with
  | .empty => .done (.ok .empty)
  | .field name children rest =>
    if name = typenameField then rest.collect fragments stack
    else
      (children.collect fragments stack).andThen fun under left _ =>
        (rest.collect fragments left).map (.field name under)
  | .inline body rest =>
    (body.collect fragments stack).andThen fun first left _ =>
      (rest.collect fragments left).map (first ++ ·)
  | .spread name rest =>
    match h : fragments.get? name with
    | none => .done (.error (.configuration (.undefinedFragment name)))
    | some body =>
      if hn : stack.contains name then .done (.error (.configuration (.cyclicFragment name)))
      else
        have := length_idle_cons_lt h (Bool.eq_false_iff.2 hn)
        (body.collect fragments (name :: stack)).leave.andThen fun first left _ =>
          (rest.collect fragments left).map (first ++ ·)
termination_by ((idle fragments stack).length, sizeOf set)
decreasing_by
  -- behind a selection the stack is the one of the beginning
  all_goals
    subst_vars
    decreasing_tactic

/-- The fields of a selection set, with the fragments in `expanding` being expanded around it. -/
def SelectionSet.expand (fragments : Assoc SelectionSet) (expanding : List String)
    (set : SelectionSet) : Except Fault Selection :=
  (set.collect fragments expanding).result

/-! ### The result alone -/

section Equations

variable {fragments : Assoc SelectionSet} {stack : List String} {name : String}
variable {children body rest : SelectionSet}

@[simp] theorem expand_empty : SelectionSet.empty.expand fragments stack = .ok .empty := by
  rw [SelectionSet.expand, SelectionSet.collect]
  rfl

theorem expand_field : (SelectionSet.field name children rest).expand fragments stack =
    if name = typenameField then rest.expand fragments stack
    else children.expand fragments stack >>= fun under =>
      Selection.field name under <$> rest.expand fragments stack := by
  rw [SelectionSet.expand, SelectionSet.collect]
  split
  · rfl
  · exact Expanded.result_andThen _ fun under left =>
      (rest.collect fragments left).map (.field name under)

theorem expand_inline : (SelectionSet.inline body rest).expand fragments stack =
    body.expand fragments stack >>= fun first =>
      (first ++ ·) <$> rest.expand fragments stack := by
  rw [SelectionSet.expand, SelectionSet.collect]
  exact Expanded.result_andThen _ fun first left => (rest.collect fragments left).map (first ++ ·)

theorem expand_spread : (SelectionSet.spread name rest).expand fragments stack =
    match fragments.get? name with
    | none => .error (.configuration (.undefinedFragment name))
    | some body =>
      if stack.contains name then .error (.configuration (.cyclicFragment name))
      else body.expand fragments (name :: stack) >>= fun first =>
        (first ++ ·) <$> rest.expand fragments stack := by
  rw [SelectionSet.expand, SelectionSet.collect]
  split
  · next h => rw [h]; rfl
  · next body h =>
    simp only [h]
    split
    · rfl
    · exact Expanded.result_andThen _ fun first left =>
        (rest.collect fragments left).map (first ++ ·)

/-- Induction along an expansion: the set of a fragment that can be entered counts as smaller. -/
@[elab_as_elim]
theorem expansion_induction (fragments : Assoc SelectionSet)
    {motive : List String → SelectionSet → Prop} (empty : ∀ stack, motive stack .empty)
    (field : ∀ stack name children rest, motive stack children → motive stack rest →
      motive stack (.field name children rest))
    (inline : ∀ stack body rest, motive stack body → motive stack rest →
      motive stack (.inline body rest))
    (spread : ∀ stack name rest,
      (∀ body, fragments.get? name = some body → stack.contains name = false →
        motive (name :: stack) body) →
      motive stack rest → motive stack (.spread name rest))
    (stack : List String) (set : SelectionSet) : motive stack set := by
  match set with
  | .empty => exact empty stack
  | .field name children rest =>
    exact field stack name children rest
      (expansion_induction fragments empty field inline spread stack children)
      (expansion_induction fragments empty field inline spread stack rest)
  | .inline body rest =>
    exact inline stack body rest
      (expansion_induction fragments empty field inline spread stack body)
      (expansion_induction fragments empty field inline spread stack rest)
  | .spread name rest =>
    refine spread stack name rest (fun body h hn => ?_)
      (expansion_induction fragments empty field inline spread stack rest)
    have := length_idle_cons_lt h hn
    exact expansion_induction fragments empty field inline spread (name :: stack) body
termination_by ((idle fragments stack).length, sizeOf set)

end Equations

/-- The selection of the only operation of a document. -/
def Document.selection (d : Document) : Except Fault Selection := do
  (← d.root).expand d.fragments []

end GraphQL

/-- The selection of the only operation in the text of a document. -/
def Selection.ofDocument (text : String) : Except Fault Selection :=
  match GraphQL.Document.ofText text with
  | .ok d => d.selection
  | .error part => .error (.configuration (.badDocument part))

end SqlAssembly
