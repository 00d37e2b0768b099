/-
# `Command.Production` — what the command produces, and when it fails

The command reads a template, perhaps an environment file, and the defines, and it stops at the
first of them that is at fault.  Here this is said without an order of reading, by the `Readings` of
a state of the host alone.  `Fault` lists what may be wrong with a configuration, each thing on its
own, whatever else is wrong:

    0   the template cannot be read, or is no text
    1   the environment file cannot be read, or is no text
    2   the environment file is no environment
    3   a define is malformed

and `Produces` says what comes of a configuration: a failure if there is a fault, and then the one of
least rank, or else the text of the template in the environment of `Binds`.  A listing asks for the
template alone, so only faults of rank 0 count for it.

* `exec_produce` — the command makes its product of what it reads, and leaves the state as it is;
* `produces_iff` — this product is what `Produces` says and nothing else;
* `produce_spec` — both, and what follows for templates of the same text and for listings.
-/
import Mathlib.Order.WellFounded
import Stencil.Proofs.Command.Files
import Stencil.Proofs.Command.Layers

namespace Stencil

theorem fromUTF8?_eq_some_iff {bytes : ByteArray} {text : String} :
    String.fromUTF8? bytes = some text ↔ bytes = text.toUTF8 := by
  unfold String.fromUTF8?
  split
  · next valid =>
      rw [Option.some.injEq]
      constructor
      · rintro rfl
        rfl
      · rintro rfl
        rfl
  · next invalid =>
      refine iff_of_false (by simp) ?_
      rintro rfl
      exact invalid text.isValidUTF8

namespace Command

/-! ## Texts that are read -/

/-- Why what was read is no text. -/
inductive Unreadable : Except HostError ByteArray → ReadError → Prop
  | refused (e : HostError) : Unreadable (.error e) (.host e)
  | notText {bytes : ByteArray} : (∀ text : String, bytes ≠ text.toUTF8) →
      Unreadable (.ok bytes) .notText

theorem textOf_text (text : String) : textOf (.ok text.toUTF8) = .ok text := by
  rw [textOf, fromUTF8?_eq_some_iff.mpr rfl]
  rfl

theorem Unreadable.textOf_eq {read : Except HostError ByteArray} {e : ReadError}
    (h : Unreadable read e) : textOf read = .error e := by
  cases h with
  | refused e => rfl
  | @notText bytes noText =>
      have none : String.fromUTF8? bytes = none := by
        rw [Option.eq_none_iff_forall_ne_some]
        intro text some
        exact noText text (fromUTF8?_eq_some_iff.mp some)
      rw [textOf, none]
      rfl

theorem text_or_unreadable (read : Except HostError ByteArray) :
    (∃ text : String, read = .ok text.toUTF8) ∨ ∃ e, Unreadable read e := by
  cases read with
  | error e => exact .inr ⟨_, .refused e⟩
  | ok bytes =>
      by_cases text : ∃ text : String, bytes = text.toUTF8
      · obtain ⟨text, rfl⟩ := text
        exact .inl ⟨text, rfl⟩
      · exact .inr ⟨_, .notText (not_exists.mp text)⟩

/-! ## What is read, and what may be wrong -/

/-- `Source r config source`: the template of a configuration is the text `source`; it is given, or
the input stream reads so, or a file. -/
inductive Source (r : Readings) (config : Config) (source : String) : Prop
  | inline : config.inline = true → config.template = source → Source r config source
  | input : config.inline = false → config.template = "-" → r.input = .ok source.toUTF8 →
      Source r config source
  | file : config.inline = false → config.template ≠ "-" →
      r.file config.template = .ok source.toUTF8 → Source r config source

/-- `Base r config base`: the environment file of a configuration binds what `base` does; without
such a file nothing is bound. -/
inductive Base (r : Readings) (config : Config) (base : Environment) : Prop
  | none : config.envFile = none → base = .empty → Base r config base
  | file {path text : String} : config.envFile = some path → r.file path = .ok text.toUTF8 →
      Environment.ofJson text = .ok base → Base r config base

inductive Fault (r : Readings) (config : Config) : Failure → Prop
  | input {e : ReadError} : config.inline = false → config.template = "-" →
      Unreadable r.input e → Fault r config (.input e)
  | template {e : ReadError} : config.inline = false → config.template ≠ "-" →
      Unreadable (r.file config.template) e → Fault r config (.template config.template e)
  | envFile {path : String} {e : ReadError} : config.envFile = some path →
      Unreadable (r.file path) e → Fault r config (.envFile path e)
  | environment {path text : String} {e : Environment.Error} : config.envFile = some path →
      r.file path = .ok text.toUTF8 → Environment.ofJson text = .error e →
      Fault r config (.environment path e)
  | define {define : String} : config.defines.find? (Malformed ·) = some define →
      Fault r config (.define define)

/-- The rank of a failure: of several faults the one of the least rank is reported. -/
def Failure.rank : Failure → Nat
  | input _ => 0
  | template _ _ => 0
  | envFile _ _ => 1
  | environment _ _ => 2
  | define _ => 3
  | output _ _ => 4

/-- `Produces r config result`: what comes of a configuration. -/
inductive Produces (r : Readings) (config : Config) : Except Failure Product → Prop
  | listed {source : String} : config.dump = true → Source r config source →
      Produces r config
        (.ok ⟨Expr.listing (compile source), Log.compiling source (scan source)⟩)
  | unlisted {f : Failure} : config.dump = true → Fault r config f → f.rank = 0 →
      Produces r config (.error f)
  | evaluated {source : String} {base env : Environment} : config.dump = false →
      Source r config source → Base r config base →
      config.defines.find? (Malformed ·) = none →
      (∀ key text, env.get? key = some text ↔ Binds base config key text) →
      Produces r config (.ok ⟨evaluate (compile source) env,
        .evaluating env.size :: Log.compiling source (scan source)⟩)
  | failed {f : Failure} : config.dump = false → Fault r config f →
      (∀ g, Fault r config g → f.rank ≤ g.rank) → Produces r config (.error f)

/-! ## The product of what is read -/

section

variable (r : Readings) (config : Config)

def Readings.source : Except Failure String :=
  if config.inline then .ok config.template
  else if config.template = "-" then (textOf r.input).mapError .input
  else (textOf (r.file config.template)).mapError (.template config.template)

/-- What the environment file binds, or why there is no telling. -/
def Readings.base : Except Failure Environment :=
  match config.envFile with
  | none => .ok .empty
  | some path =>
    match textOf (r.file path) with
    | .error e => .error (.envFile path e)
    | .ok text => (Environment.ofJson text).mapError (.environment path)

/-- The output of a configuration, or why there is none. -/
def Readings.product : Except Failure Product :=
  (r.source config).bind fun source =>
    if config.dump then .ok (listed source)
    else (r.base config).bind fun base => (layered base config).map (evaluated source)

end

section

variable {m : Type → Type} {σ : Type} [Monad m] [Host m] [HostStates m σ] [LawfulHost m]

theorem exec_readSource (s : σ) (config : Config) :
    exec (readSource config : m _) s = ((readings m s).source config, s) := by
  unfold readSource Readings.source
  split
  · exact LawfulHost.exec_pure _ _
  · split
    · rw [exec_bind_of_exec (LawfulHost.exec_readInput s), LawfulHost.exec_pure]
    · rw [exec_bind_of_exec (LawfulHost.exec_readFile _ s), LawfulHost.exec_pure]

theorem exec_readBase (s : σ) (config : Config) :
    exec (readBase config : m _) s = ((readings m s).base config, s) := by
  unfold readBase Readings.base
  cases config.envFile with
  | none => exact LawfulHost.exec_pure _ _
  | some path =>
      simp only
      rw [exec_bind_of_exec (LawfulHost.exec_readFile path s)]
      cases textOf ((readings m s).file path) with
      | error e => exact LawfulHost.exec_pure _ _
      | ok text => exact LawfulHost.exec_pure _ _

theorem exec_produce (s : σ) (config : Config) :
    exec (produce config : m _) s = ((readings m s).product config, s) := by
  unfold produce Readings.product
  rw [exec_bind_of_exec (exec_readSource s config)]
  cases (readings m s).source config with
  | error f => exact LawfulHost.exec_pure _ _
  | ok source =>
      simp only [Except.bind]
      split
      · exact LawfulHost.exec_pure _ _
      · rw [exec_bind_of_exec (exec_readBase s config)]
        cases (readings m s).base config with
        | error f => exact LawfulHost.exec_pure _ _
        | ok base => exact LawfulHost.exec_pure _ _

end

/-! ## Sources, environments and faults -/

variable {r r' : Readings} {config config' : Config}

theorem Source.eq {source : String} (h : Source r config source) :
    r.source config = .ok source := by
  unfold Readings.source
  cases h with
  | inline inline eq => rw [if_pos inline, eq]
  | input inline dash eq =>
      rw [if_neg (Bool.eq_false_iff.mp inline), if_pos dash, eq, textOf_text]
      rfl
  | file inline dash eq =>
      rw [if_neg (Bool.eq_false_iff.mp inline), if_neg dash, eq, textOf_text]
      rfl

theorem Fault.source_eq {f : Failure} (h : Fault r config f) (rank : f.rank = 0) :
    r.source config = .error f := by
  unfold Readings.source
  cases h with
  | input inline dash unreadable =>
      rw [if_neg (Bool.eq_false_iff.mp inline), if_pos dash, unreadable.textOf_eq]
      rfl
  | template inline dash unreadable =>
      rw [if_neg (Bool.eq_false_iff.mp inline), if_neg dash, unreadable.textOf_eq]
      rfl
  | envFile | environment | define => exact nomatch rank

theorem source_or_fault (r : Readings) (config : Config) :
    (∃ source, Source r config source) ∨ ∃ f, Fault r config f ∧ f.rank = 0 := by
  cases inline : config.inline with
  | true => exact .inl ⟨_, .inline inline rfl⟩
  | false =>
      by_cases dash : config.template = "-"
      · rcases text_or_unreadable r.input with ⟨text, eq⟩ | ⟨e, unreadable⟩
        · exact .inl ⟨text, .input inline dash eq⟩
        · exact .inr ⟨_, .input inline dash unreadable, rfl⟩
      · rcases text_or_unreadable (r.file config.template) with ⟨text, eq⟩ | ⟨e, unreadable⟩
        · exact .inl ⟨text, .file inline dash eq⟩
        · exact .inr ⟨_, .template inline dash unreadable, rfl⟩

theorem Base.eq {base : Environment} (h : Base r config base) : r.base config = .ok base := by
  unfold Readings.base
  cases h with
  | none envFile eq => rw [envFile, eq]
  | file envFile read ok =>
      rw [envFile]
      simp only [read, textOf_text, ok]
      rfl

theorem Fault.base_eq {f : Failure} (h : Fault r config f) (rank : f.rank = 1 ∨ f.rank = 2) :
    r.base config = .error f := by
  unfold Readings.base
  cases h with
  | envFile envFile unreadable =>
      rw [envFile]
      simp only [unreadable.textOf_eq]
  | environment envFile read bad =>
      rw [envFile]
      simp only [read, textOf_text, bad]
      rfl
  | input | template | define => simp [Failure.rank] at rank

theorem base_or_fault (r : Readings) (config : Config) :
    (∃ base, Base r config base) ∨ ∃ f, Fault r config f ∧ (f.rank = 1 ∨ f.rank = 2) := by
  cases envFile : config.envFile with
  | none => exact .inl ⟨_, .none envFile rfl⟩
  | some path =>
      rcases text_or_unreadable (r.file path) with ⟨text, read⟩ | ⟨e, unreadable⟩
      · cases json : Environment.ofJson text with
        | ok base => exact .inl ⟨base, .file envFile read json⟩
        | error e => exact .inr ⟨_, .environment envFile read json, .inr rfl⟩
      · exact .inr ⟨_, .envFile envFile unreadable, .inl rfl⟩

/-! ## What comes of a configuration -/

section

variable {source : String} {base : Environment} {f : Failure}

theorem product_of_error (sourced : r.source config = .error f) : r.product config = .error f := by
  rw [Readings.product, sourced]
  rfl

theorem product_of_dump (sourced : r.source config = .ok source) (dump : config.dump = true) :
    r.product config = .ok (listed source) := by
  rw [Readings.product, sourced]
  exact if_pos dump

theorem product_of_not_dump (sourced : r.source config = .ok source) (dump : config.dump = false) :
    r.product config =
      (r.base config).bind fun base => (layered base config).map (evaluated source) := by
  rw [Readings.product, sourced]
  exact if_neg (Bool.eq_false_iff.mp dump)

end

/-- Of several faults the one of the least rank is reported. -/
theorem Fault.product_eq {f : Failure} (h : Fault r config f) (dump : config.dump = false)
    (first : ∀ g, Fault r config g → f.rank ≤ g.rank) : r.product config = .error f := by
  have sourced (rank : 0 < f.rank) : ∃ source, Source r config source := by
    refine (source_or_fault r config).resolve_right ?_
    rintro ⟨g, earlier, zero⟩
    have := first g earlier
    omega
  have based (rank : 2 < f.rank) : ∃ base, Base r config base := by
    refine (base_or_fault r config).resolve_right ?_
    rintro ⟨g, earlier, middle⟩
    have := first g earlier
    omega
  have fault := h
  cases h with
  | input => exact product_of_error (fault.source_eq rfl)
  | template => exact product_of_error (fault.source_eq rfl)
  | envFile =>
      obtain ⟨source, reads⟩ := sourced (Nat.zero_lt_succ 0)
      rw [product_of_not_dump reads.eq dump, fault.base_eq (.inl rfl)]
      rfl
  | environment =>
      obtain ⟨source, reads⟩ := sourced (Nat.zero_lt_succ 1)
      rw [product_of_not_dump reads.eq dump, fault.base_eq (.inr rfl)]
      rfl
  | @define define some =>
      obtain ⟨source, reads⟩ := sourced (Nat.zero_lt_succ 2)
      obtain ⟨base, binds⟩ := based (Nat.lt_succ_self 2)
      rw [product_of_not_dump reads.eq dump, binds.eq]
      rcases layered_cases base config with ⟨none, -⟩ | ⟨other, some', bad⟩
      · exact nomatch none.symm.trans some
      · obtain rfl := Option.some.inj (some'.symm.trans some)
        show (layered base config).map (evaluated source) = _
        rw [bad]
        rfl

theorem Produces.product_eq {result : Except Failure Product} (h : Produces r config result) :
    r.product config = result := by
  cases h with
  | listed dump reads => exact product_of_dump reads.eq dump
  | unlisted dump fault rank => exact product_of_error (fault.source_eq rank)
  | failed dump fault first => exact fault.product_eq dump first
  | @evaluated source base env dump reads binds sound held =>
      rw [product_of_not_dump reads.eq dump, binds.eq]
      rcases layered_cases base config with ⟨-, env', ok, held'⟩ | ⟨define, some, -⟩
      · -- Both environments are known by what they bind.
        obtain rfl : env' = env := by
          refine Environment.ext fun key => Option.ext fun text => ?_
          rw [held, held']
        show (layered base config).map (Command.evaluated source) = _
        rw [ok]
        rfl
      · exact nomatch sound.symm.trans some

theorem exists_first_fault (faulty : ∃ f, Fault r config f) :
    ∃ f, Fault r config f ∧ ∀ g, Fault r config g → f.rank ≤ g.rank := by
  obtain ⟨f, fault, first⟩ := (measure Failure.rank).wf.has_min {f | Fault r config f} faulty
  exact ⟨f, fault, fun g later => Nat.le_of_not_lt (first g later)⟩

/-- Something comes of every configuration. -/
theorem exists_produces (r : Readings) (config : Config) : ∃ result, Produces r config result := by
  cases dump : config.dump with
  | true =>
      rcases source_or_fault r config with ⟨source, reads⟩ | ⟨f, fault, rank⟩
      · exact ⟨_, .listed dump reads⟩
      · exact ⟨_, .unlisted dump fault rank⟩
  | false =>
      by_cases faulty : ∃ f, Fault r config f
      · obtain ⟨f, fault, first⟩ := exists_first_fault faulty
        exact ⟨_, .failed dump fault first⟩
      · obtain ⟨source, reads⟩ := (source_or_fault r config).resolve_right
          fun ⟨f, fault, _⟩ => faulty ⟨f, fault⟩
        obtain ⟨base, binds⟩ := (base_or_fault r config).resolve_right
          fun ⟨f, fault, _⟩ => faulty ⟨f, fault⟩
        rcases layered_cases base config with ⟨none, env, -, held⟩ | ⟨define, some, -⟩
        · exact ⟨_, .evaluated dump reads binds none held⟩
        · exact (faulty ⟨_, .define some⟩).elim

theorem produces_iff {result : Except Failure Product} :
    Produces r config result ↔ r.product config = result := by
  constructor
  · exact Produces.product_eq
  · rintro rfl
    obtain ⟨result, produces⟩ := exists_produces r config
    rwa [produces.product_eq]

theorem Produces.unique {result other : Except Failure Product} (h : Produces r config result)
    (h' : Produces r config other) : result = other :=
  h.product_eq.symm.trans h'.product_eq

theorem produces_error_iff_fault (dump : config.dump = false) :
    (∃ f, Produces r config (.error f)) ↔ ∃ f, Fault r config f := by
  constructor
  · rintro ⟨f, produces⟩
    cases produces with
    | unlisted _ fault _ => exact ⟨f, fault⟩
    | failed _ fault _ => exact ⟨f, fault⟩
  · intro faulty
    obtain ⟨f, fault, first⟩ := exists_first_fault faulty
    exact ⟨f, .failed dump fault first⟩

theorem product_congr {source template : String} {inline : Bool} (reads : Source r config source)
    (reads' : Source r' { config with template := template, inline := inline } source)
    (same : ∀ path, config.envFile = some path → r'.file path = r.file path) :
    r'.product { config with template := template, inline := inline } = r.product config := by
  have based : r'.base { config with template := template, inline := inline } = r.base config := by
    unfold Readings.base
    cases envFile : config.envFile with
    | none => rfl
    | some path => simp only [same path envFile]
  rcases config.dump.eq_false_or_eq_true with dump | dump
  · rw [product_of_dump reads.eq dump, product_of_dump reads'.eq dump]
  · rw [product_of_not_dump reads.eq dump, product_of_not_dump reads'.eq dump, based]
    rfl

theorem product_of_listing (dump : config.dump = true) (values defines : List String)
    (envFile : Option String) :
    r.product { config with values := values, defines := defines, envFile := envFile } =
      r.product config := by
  rcases source_or_fault r config with ⟨source, reads⟩ | ⟨f, fault, rank⟩
  · rw [product_of_dump reads.eq dump]
    exact product_of_dump reads.eq dump
  · rw [product_of_error (fault.source_eq rank)]
    exact product_of_error (fault.source_eq rank)

/-- **What the command produces.**  On every host, from every state and of every configuration it
produces what `Produces` says, and leaves the state as it is.  Unless a listing is asked for, it
fails exactly if there is a fault.  The text of the template is all that counts of it: from another
place, in a state that reads the same environment file, it gives the same result.  Values, defines
and the environment file do not count for a listing. -/
theorem produce_spec (m : Type → Type) {σ : Type} [Monad m] [Host m] [HostStates m σ]
    [LawfulHost m] (s : σ) (config : Config) :
    (∀ result after, exec (produce config : m _) s = (result, after) ↔
      Produces (readings m s) config result ∧ after = s) ∧
    (config.dump = false →
      ((∃ f, Produces (readings m s) config (.error f)) ↔ ∃ f, Fault (readings m s) config f)) ∧
    (∀ (s' : σ) (source template : String) (inline : Bool),
      Source (readings m s) config source →
      Source (readings m s') { config with template := template, inline := inline } source →
      (∀ path, config.envFile = some path →
        (readings m s').file path = (readings m s).file path) →
      ∃ result, exec (produce config : m _) s = (result, s) ∧
        exec (produce { config with template := template, inline := inline } : m _) s' =
          (result, s')) ∧
    (config.dump = true → ∀ (values defines : List String) (envFile : Option String),
      exec (produce { config with values := values, defines := defines, envFile := envFile } :
        m _) s = exec (produce config : m _) s) := by
  refine ⟨fun result after => ?_, produces_error_iff_fault, ?_, ?_⟩
  · rw [exec_produce, produces_iff, Prod.mk.injEq, eq_comm (a := s)]
  · intro s' source template inline reads reads' same
    exact ⟨_, exec_produce s config, by rw [exec_produce, product_congr reads reads' same]⟩
  · intro dump values defines envFile
    rw [exec_produce, exec_produce, product_of_listing dump]

/-- The template may stand in a file, here by a path through the directory above, or be given. -/
theorem produce_spec_through_above :
    ∃ result,
      exec (produce ⟨"../work/t", ["v"], false, [], none, none, false⟩ : StateM World _)
          (.ofFiles [("t", "$\x7b0\x7d".toUTF8)] .empty) =
        (result, .ofFiles [("t", "$\x7b0\x7d".toUTF8)] .empty) ∧
      exec (produce ⟨"$\x7b0\x7d", ["v"], true, [], none, none, false⟩ : StateM World _)
          (.ofFiles [] .empty) = (result, .ofFiles [] .empty) :=
  have reads : Source (readings (StateM World) (.ofFiles [("t", "$\x7b0\x7d".toUTF8)] .empty))
      ⟨"../work/t", ["v"], false, [], none, none, false⟩ "$\x7b0\x7d" :=
    .file rfl (by decide) rfl
  (produce_spec (StateM World) _ _).2.2.1 _ _ _ _ reads (.inline rfl rfl) fun _ none => nomatch none

end Command

end Stencil
