/-
# `Command.Effects` — all or nothing, and where the output goes

The command either does all of its work or leaves no trace but its report.  An output file receives
what would otherwise be printed, and nothing else changes: the text is complete before anything is
written, so it does not matter if the file is the template or the environment file.

* `exec_execute_of_error`, … — the four ways in which the command can end;
* `Effects` — what is to be seen of a run;
* `run_effects` — on every host, every run of the command shows this.
-/
import Stencil.Proofs.Command.Production
import Stencil.Proofs.Command.Spelling

namespace Stencil.Command

/-! ## The four ends -/

section

variable {m : Type → Type} {σ : Type} [Monad m] [Host m] [HostStates m σ] [LawfulHost m]
  {s after : σ} {config : Config} {filter : Log.Filter} {f : Failure} {product : Product}
  {path : String} {e : HostError}

theorem exec_execute_of_error (produced : exec (produce config : m _) s = (.error f, s)) :
    exec (execute filter config : m _) s = (failed filter [] f, s) := by
  unfold execute
  rw [exec_bind_of_exec produced]
  exact LawfulHost.exec_pure _ _

theorem exec_execute_of_printed (produced : exec (produce config : m _) s = (.ok product, s))
    (output : config.output = none) :
    exec (execute filter config : m _) s =
      (⟨0, product.text, filter.lines product.events⟩, s) := by
  unfold execute
  rw [exec_bind_of_exec produced, output]
  exact LawfulHost.exec_pure _ _

theorem exec_execute_of_refused (produced : exec (produce config : m _) s = (.ok product, s))
    (output : config.output = some path)
    (refused : exec (Host.writeFile path product.text.toUTF8 : m _) s = (.error e, after)) :
    exec (execute filter config : m _) s =
      (failed filter product.events (.output path e), after) := by
  unfold execute
  rw [exec_bind_of_exec produced, output]
  simp only
  rw [exec_bind_of_exec refused]
  exact LawfulHost.exec_pure _ _

theorem exec_execute_of_written (produced : exec (produce config : m _) s = (.ok product, s))
    (output : config.output = some path)
    (written : exec (Host.writeFile path product.text.toUTF8 : m _) s = (.ok (), after)) :
    exec (execute filter config : m _) s =
      (⟨0, "", filter.lines (product.events ++ [.wrote path product.text.utf8ByteSize])⟩, after) := by
  unfold execute
  rw [exec_bind_of_exec produced, output]
  simp only
  rw [exec_bind_of_exec written]
  exact LawfulHost.exec_pure _ _

end

/-! ## The effects of a run -/

/-- An argument list asks for the same as another, but for an output file. -/
def Unredirected (arguments bare : List String) : Prop :=
  items bare = (items arguments).filter Item.notOutput

section

variable (m : Type → Type) {σ : Type} [Monad m] [Host m] [HostStates m σ]

def Refuses (s : σ) (path text : String) : Prop :=
  ∃ e, (exec (Host.writeFile path text.toUTF8 : m _) s).1 = .error e

/-- What is to be seen of a run of the command: how it ends, and the state after it. -/
structure Effects (arguments : List String) (log : Option String) (config : Config)
    (before : σ) (outcome : Outcome) (after : σ) : Prop where
  /-- If something fails or the output file is refused, nothing is printed and nothing changes. -/
  failed : (∃ f, Produces (readings m before) config (.error f)) ∨
      (∃ product path, Produces (readings m before) config (.ok product) ∧
        config.output = some path ∧ Refuses m before path product.text) →
    outcome.exit = 1 ∧ outcome.stdout = "" ∧ after = before
  /-- Without an output file the text is printed, and nothing changes. -/
  printed : ∀ product, Produces (readings m before) config (.ok product) → config.output = none →
    outcome.exit = 0 ∧ outcome.stdout = product.text ∧ after = before
  /-- With one the text is written, and nothing else changes. -/
  written : ∀ product path, Produces (readings m before) config (.ok product) →
    config.output = some path → ¬ Refuses m before path product.text →
    outcome.exit = 0 ∧ outcome.stdout = "" ∧
      Overwritten m before after path product.text.toUTF8
  /-- What is written is what would have been printed. -/
  redirected : ∀ path, config.output = some path → outcome.exit = 0 →
    (∃ bare, Unredirected arguments bare) ∧
    ∀ bare, Unredirected arguments bare →
      ∃ printed, exec (run bare log : m _) before = (printed, before) ∧
        printed.exit = 0 ∧ Overwritten m before after path printed.stdout.toUTF8

end

section

variable {m : Type → Type} {σ : Type} [Monad m] [Host m] [HostStates m σ] {arguments : List String}
  {log : Option String} {config : Config} {s after : σ} {f : Failure} {product : Product}
  {path stderr : String}

theorem run_of_parse (parsed : parse arguments = .ok (.run config)) :
    (run arguments log : m _) = execute ((log.map .ofString).getD .usual) config := by
  unfold run
  rw [parsed]

theorem Effects.of_error (produces : Produces (readings m s) config (.error f)) :
    Effects m arguments log config s ⟨1, "", stderr⟩ s where
  failed _ := ⟨rfl, rfl, rfl⟩
  printed _ other := nomatch produces.unique other
  written _ _ other := nomatch produces.unique other
  redirected _ _ exit := nomatch exit

theorem Effects.of_refused (produces : Produces (readings m s) config (.ok product))
    (output : config.output = some path) (refuses : Refuses m s path product.text) :
    Effects m arguments log config s ⟨1, "", stderr⟩ s where
  failed _ := ⟨rfl, rfl, rfl⟩
  printed _ _ none := nomatch output.symm.trans none
  written _ _ other some accepts := by
    obtain rfl := Except.ok.inj (produces.unique other)
    obtain rfl := Option.some.inj (output.symm.trans some)
    exact absurd refuses accepts
  redirected _ _ exit := nomatch exit

theorem Effects.of_printed (produces : Produces (readings m s) config (.ok product))
    (output : config.output = none) :
    Effects m arguments log config s ⟨0, product.text, stderr⟩ s where
  failed := by
    rintro (⟨f, other⟩ | ⟨_, path, -, some, -⟩)
    · exact nomatch produces.unique other
    · exact nomatch output.symm.trans some
  printed _ other _ := by
    obtain rfl := Except.ok.inj (produces.unique other)
    exact ⟨rfl, rfl, rfl⟩
  written _ _ _ some := nomatch output.symm.trans some
  redirected _ some := nomatch output.symm.trans some

theorem Effects.of_written [LawfulHost m] (parsed : parse arguments = .ok (.run config))
    (produces : Produces (readings m s) config (.ok product)) (output : config.output = some path)
    (accepts : ¬ Refuses m s path product.text)
    (overwritten : Overwritten m s after path product.text.toUTF8) :
    Effects m arguments log config s ⟨0, "", stderr⟩ after where
  failed := by
    rintro (⟨f, other⟩ | ⟨_, _, other, some, refuses⟩)
    · exact nomatch produces.unique other
    · obtain rfl := Except.ok.inj (produces.unique other)
      obtain rfl := Option.some.inj (output.symm.trans some)
      exact absurd refuses accepts
  printed _ _ none := nomatch output.symm.trans none
  written _ _ other some _ := by
    obtain rfl := Except.ok.inj (produces.unique other)
    obtain rfl := Option.some.inj (output.symm.trans some)
    exact ⟨rfl, rfl, overwritten⟩
  redirected path' some _ := by
    obtain rfl := Option.some.inj (output.symm.trans some)
    refine ⟨exists_items_filter _ (not_wrong_of_read parsed), fun bare same => ?_⟩
    -- The output file plays no part in what is produced.
    have produced : exec (produce config.withoutOutput : m _) s = (.ok product, s) :=
      (exec_produce s config.withoutOutput).trans (congrArg (·, s) produces.product_eq)
    rw [run_of_parse (parse_of_items_filter parsed same)]
    exact ⟨_, exec_execute_of_printed produced rfl, rfl, overwritten⟩

end

/-- **Every run is all or nothing, and an output file only redirects.**  When the arguments ask for
a configuration, the command ends on every host and from every state, and what is to be seen of it
is what `Effects` says. -/
theorem run_effects (m : Type → Type) {σ : Type} [Monad m] [Host m] [HostStates m σ] [LawfulHost m]
    {arguments : List String} {config : Config} (parsed : parse arguments = .ok (.run config))
    (log : Option String) (s : σ) :
    ∃ outcome after, exec (run arguments log : m _) s = (outcome, after) ∧
      Effects m arguments log config s outcome after := by
  rw [run_of_parse parsed]
  obtain ⟨result, produces⟩ := exists_produces (readings m s) config
  have produced : exec (produce config : m _) s = (result, s) := by
    rw [exec_produce, produces.product_eq]
  cases result with
  | error f => exact ⟨_, _, exec_execute_of_error produced, .of_error produces⟩
  | ok product =>
      cases output : config.output with
      | none => exact ⟨_, _, exec_execute_of_printed produced output, .of_printed produces output⟩
      | some path =>
          rcases wrote : exec (Host.writeFile path product.text.toUTF8 : m _) s with ⟨e | ⟨⟩, after⟩
          · obtain rfl := LawfulHost.write_refused wrote
            exact ⟨_, _, exec_execute_of_refused produced output wrote,
              .of_refused produces output ⟨e, congrArg Prod.fst wrote⟩⟩
          · have accepts : ¬ Refuses m s path product.text := by
              rintro ⟨e, refused⟩
              exact nomatch refused.symm.trans (congrArg Prod.fst wrote)
            exact ⟨_, _, exec_execute_of_written produced output wrote,
              .of_written parsed produces output accepts (overwritten_of_write wrote)⟩

/-- The output file may be the template, here in a world that holds no other file. -/
theorem run_effects_onto_template :
    parse ["--output=t", "t", "v"] = .ok (.run ⟨"t", ["v"], false, [], none, some "t", false⟩) ∧
      ∃ outcome after,
        exec (run ["--output=t", "t", "v"] none : StateM World _)
            (.ofFiles [("t", "a".toUTF8)] .empty) = (outcome, after) ∧
          Effects (StateM World) ["--output=t", "t", "v"] none
            ⟨"t", ["v"], false, [], none, some "t", false⟩
            (.ofFiles [("t", "a".toUTF8)] .empty) outcome after :=
  ⟨by decide, run_effects (StateM World) (by decide) none (.ofFiles [("t", "a".toUTF8)] .empty)⟩

end Stencil.Command
