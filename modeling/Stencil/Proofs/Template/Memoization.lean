/-
# `Template.Memoization` — a template that remembers is not told from one that does not

A template compiles its source when its compiled list is first needed, keeps the list, and hands it
on to its copies.  Nothing of this shows: what is said here of a session of templates is said of
sources alone, as if every use of a list compiled the source anew.

The one thing that has to be known of the past is which operations a template has been through.
`Life` is that record, with the template's source; a copy takes over the record of what it was copied
from.  So a template is compiled exactly if its record holds an operation that needs the list, and
the log hears of a compilation exactly at the first of them (`firstNeeds`).

* `Life.template` — the template that a life comes to;
* `run_follows` — a session holds the templates of its lives, and has told the log of their first
  needs;
* `run_recompiles` — hence everything that can be observed of a session.
-/
import Mathlib.Data.List.Induction
import Stencil.Template.Session

namespace Stencil

theorem compile_ne_nil (source : String) : compile source ≠ [] := by
  simp [compile, scan, Scanner.finish]

/-- How often the log is told that a source was compiled. -/
def Log.compilations (events : List Event) : Nat :=
  events.countP fun
    | .compiled _ _ => true
    | _ => false

theorem Log.compilations_append (events more : List Event) :
    compilations (events ++ more) = compilations events + compilations more :=
  List.countP_append

theorem Log.compilations_compiling (source : String) (found : Compiled) :
    compilations (compiling source found) = 1 := by
  have transitions : compilations (found.transitions.map .transition) = 0 := by
    rw [compilations, List.countP_eq_zero]
    intro e mem
    obtain ⟨change, -, rfl⟩ := List.mem_map.mp mem
    exact Bool.false_ne_true
  rw [compiling, compilations_append, transitions]
  rfl

theorem Log.compilations_flatMap_compiling (sources : List String) :
    compilations (sources.flatMap fun source => compiling source (scan source)) =
      sources.length := by
  induction sources with
  | nil => rfl
  | cons source sources ih =>
      rw [List.flatMap_cons, compilations_append, compilations_compiling, ih, List.length_cons,
        Nat.add_comm]

namespace Template

/-! ## Lives -/

def Op.needsList : Op → Bool
  | create _ | reset | copy _ | look => false
  | compile | expressions | listing | evaluate _ | evaluateEmpty => true

/-- What has become of a template: its source, and the operations that it has been through since it
was made, the latest first. -/
structure Life where
  source : String
  ops : List Op

namespace Life

def needed (life : Life) : Bool :=
  life.ops.any (·.needsList)

/-- Whether an operation is the first to need the compiled list. -/
def firstNeed (life : Life) (op : Op) : Bool :=
  op.needsList && !life.needed

/-- The template that a life comes to. -/
def template (life : Life) : Template :=
  ⟨life.source, if life.needed then some (Stencil.compile life.source) else none⟩

/-- A life with one more operation in it; `lives` are the lives that a copy takes over. -/
def after (lives : String → Life) (life : Life) : Op → Life
  | .create source => ⟨source, []⟩
  | .reset => ⟨"", []⟩
  | .copy name => lives name
  | op => { life with ops := op :: life.ops }

end Life

/-- The lives in a session, by name; `past` are the operations so far, the latest first. -/
def lives : List (String × Op) → String → Life
  | [], _ => ⟨"", []⟩
  | (name, op) :: past, other =>
    if name = other then (lives past name).after (lives past) op else lives past other

/-- The sources whose compiled lists were needed for the first time, in the order of these needs. -/
def firstNeeds : List (String × Op) → List String
  | [] => []
  | (name, op) :: past =>
    firstNeeds past ++ if (lives past name).firstNeed op then [(lives past name).source] else []

/-- What an operation answers of a template with a source, the source being compiled anew. -/
def Op.recompiled (source : String) : Op → Answer
  | create _ | reset | copy _ | compile | look => .nothing
  | expressions => .exprs (Stencil.compile source)
  | listing => .lines ((Stencil.compile source).map (·.display))
  | evaluate env => .text (Stencil.evaluate (Stencil.compile source) env)
  | evaluateEmpty => .text (Stencil.evaluate (Stencil.compile source) .empty)

/-! ## One operation -/

namespace Life

variable (life : Life)

theorem isCompiled_template : life.template.isCompiled = life.needed := by
  unfold isCompiled template
  cases life.needed with
  | false => rfl
  | true => simp [compile_ne_nil]

theorem force_template :
    life.template.force = ⟨Stencil.compile life.source,
      ⟨life.source, some (Stencil.compile life.source)⟩,
      if life.needed then [] else Log.compiling life.source (scan life.source)⟩ := by
  unfold force template
  cases life.needed <;> rfl

/-- What the log is told of an operation: of a compilation, if the list was not needed before. -/
def told (op : Op) : List Log.Event :=
  if life.firstNeed op then Log.compiling life.source (scan life.source) else []

/-- A use of the compiled list of a template does not show whether the list was there before. -/
theorem use_template (op : Op) (needs : op.needsList) (answer : List Expr → Answer) :
    life.template.use answer =
      ⟨answer (Stencil.compile life.source), template ⟨life.source, op :: life.ops⟩,
        life.told op⟩ := by
  have after : template ⟨life.source, op :: life.ops⟩ =
      ⟨life.source, some (Stencil.compile life.source)⟩ := by
    simp [template, needed, needs]
  have told : life.told op =
      if life.needed then [] else Log.compiling life.source (scan life.source) := by
    rw [Life.told, firstNeed, needs]
    cases life.needed <;> rfl
  rw [Template.use, force_template, after, told]

end Life

/-- **One operation** on the template of a life answers what a source compiled anew would answer, and
leaves the template of the life with the operation in it. -/
theorem apply_template {shelf : Shelf Template} {lives : String → Life}
    (held : ∀ name, shelf.get name = (lives name).template) (life : Life) (op : Op) :
    Template.apply shelf life.template op =
      ⟨op.recompiled life.source, (life.after lives op).template, life.told op⟩ := by
  cases op with
  | create source => rfl
  | reset => rfl
  | copy name =>
      rw [Template.apply, held name]
      rfl
  | compile => exact life.use_template .compile rfl fun _ => .nothing
  | expressions => exact life.use_template .expressions rfl .exprs
  | listing => exact life.use_template .listing rfl fun exprs => .lines (exprs.map (·.display))
  | evaluate env =>
      exact life.use_template (.evaluate env) rfl fun exprs => .text (Stencil.evaluate exprs env)
  | evaluateEmpty =>
      exact life.use_template .evaluateEmpty rfl fun exprs => .text (Stencil.evaluate exprs .empty)
  | look => rfl

/-! ## Sessions -/

namespace Session

theorem get_apply_of_ne (s : Session) {name other : String} (op : Op) (ne : other ≠ name) :
    (s.apply name op).2.shelf.get other = s.shelf.get other := by
  rw [apply, Shelf.get_put, if_neg (Ne.symm ne)]

theorem run_concat (s : Session) (ops : List (String × Op)) (name : String) (op : Op) :
    s.run (ops ++ [(name, op)]) = ((s.run ops).apply name op).2 := by
  simp [run]

/-- A session holds the templates of its lives, and has told the log of their first needs. -/
structure Follows (s : Session) (past : List (String × Op)) : Prop where
  shelf : ∀ name, s.shelf.get name = (lives past name).template
  events : s.events = (firstNeeds past).flatMap fun source => Log.compiling source (scan source)

variable {s : Session} {past : List (String × Op)}

theorem Follows.apply_eq (h : s.Follows past) (name : String) (op : Op) :
    s.apply name op = (op.recompiled (lives past name).source,
      ⟨s.shelf.put name (lives ((name, op) :: past) name).template,
        s.events ++ (lives past name).told op⟩) := by
  rw [Session.apply, h.shelf name, apply_template h.shelf (lives past name) op, lives, if_pos rfl]

theorem Follows.step (h : s.Follows past) (name : String) (op : Op) :
    (s.apply name op).2.Follows ((name, op) :: past) := by
  rw [h.apply_eq name op]
  constructor
  · intro other
    rw [Shelf.get_put]
    split
    · next eq => rw [eq]
    · next ne => rw [h.shelf other, lives, if_neg ne]
  · rw [firstNeeds, List.flatMap_append, ← h.events, Life.told]
    split <;> simp

/-- **A session follows its lives**, whatever the operations. -/
theorem run_follows (ops : List (String × Op)) : (start.run ops).Follows ops.reverse := by
  induction ops using List.reverseRecOn with
  | nil => exact ⟨Shelf.get_empty, rfl⟩
  | append_singleton ops step ih =>
      obtain ⟨name, op⟩ := step
      rw [run_concat, List.reverse_concat]
      exact ih.step name op

/-! ## What can be observed -/

/-- What can be observed of a session after some operations, the latest first, is what sources that
are compiled anew at every need would show. -/
structure Recompiles (s : Session) (past : List (String × Op)) : Prop where
  source : ∀ name, (s.shelf.get name).source = (lives past name).source
  isCompiled : ∀ name,
    (s.shelf.get name).isCompiled ↔ ∃ op ∈ (lives past name).ops, op.needsList
  answer : ∀ name op, (s.apply name op).1 = op.recompiled (lives past name).source
  others : ∀ name op other, other ≠ name →
    (s.apply name op).2.shelf.get other = s.shelf.get other
  told : ∀ name op, (s.apply name op).2.events = s.events ++
    if op.needsList ∧ ¬ (s.shelf.get name).isCompiled then
      Log.compiling (lives past name).source (scan (lives past name).source)
    else []
  compilations : Log.compilations s.events = (firstNeeds past).length

theorem isCompiled_iff (h : s.Follows past) (name : String) :
    (s.shelf.get name).isCompiled ↔ ∃ op ∈ (lives past name).ops, op.needsList := by
  rw [h.shelf name, Life.isCompiled_template, Life.needed, List.any_eq_true]

/-- **A session whose templates keep their compiled lists is not told from one that compiles them
anew**, except by the log, which hears of one compilation for each template that becomes compiled. -/
theorem run_recompiles (ops : List (String × Op)) :
    (start.run ops).Recompiles ops.reverse := by
  have follows := run_follows ops
  refine ⟨fun name => ?_, isCompiled_iff follows, fun name op => ?_, fun name op other ne => ?_,
    fun name op => ?_, ?_⟩
  · rw [follows.shelf name]
    rfl
  · rw [follows.apply_eq]
  · exact get_apply_of_ne _ op ne
  · rw [follows.apply_eq, follows.shelf name, Life.isCompiled_template, Life.told, Life.firstNeed]
    simp
  · rw [follows.events, Log.compilations_flatMap_compiling]

end Session

end Template

end Stencil
