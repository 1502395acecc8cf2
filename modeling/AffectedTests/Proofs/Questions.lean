import AffectedTests.Proofs.Parts
/-!
# Questions one after the other

A project is asked many things while its files stay as they are: for files, for the tests and the
declarations in them, for references, for what an import names, and for what a change reaches. All that
is seen on the way is remembered, also by a question that fails halfway, and the next question begins
with it. Nobody can tell from the answers: each is the one that the project would give if it were asked
nothing else.

- `Question.ask_eq_fresh`: one question, asked after anything that shows what the project shows.
- `Question.answers_eq_fresh`: any list of questions.
-/

namespace AffectedTests

/-- A question to a project. -/
inductive Question
  | load (path : Text)
  | listing
  | tests (path : Text)
  | declarationAt (path : Text) (line : Int)
  | changedAt (path : Text) (line : Int)
  | references (d : Declaration)
  | localReferences (path name : Text)
  | resolve (importer specifier : Text)
  | trace (diff : FileDiff) (path : Text)

/-- The answer of a query and the progress after it; the tracer is left alone. -/
def Progress.pose {α : Type} (w : Workspace) (p : Progress) (q : Query α) :
    Except Failure α × Progress :=
  ((q.ask w p.session).1, { p with session := (q.ask w p.session).2 })

/-- A query leaves what a session shows as it is, and answers from nothing else. -/
theorem Progress.Shows.pose {α : Type} {w : Workspace} {p : Progress} (hp : p.Shows w) {q : Query α}
    (hq : q.Steady) :
    (p.pose w q).1 = (Progress.pose w {} q).1 ∧ (p.pose w q).2.Shows w :=
  ⟨hq.answer_eq Session.coherent_empty hp.1 hp.2, hq.coherent hp.1, hp.2.trans (hq.alike hp.1)⟩

namespace Query

theorem steady_declarationAt? (path : Text) (line : Int) : Steady (declarationAt? path line) := by
  refine (steady_load path).bind ?_
  intro file
  cases file with
  | none => exact steady_pure none
  | some file => exact steady_ofExcept _

end Query

namespace Question

/-- What a question asks for. -/
def Answer : Question → Type
  | .load _ => Option SourceFile
  | .listing => List Text
  | .tests _ => List TestDeclaration
  | .declarationAt _ _ => Option Declaration
  | .changedAt _ _ => Option Declaration
  | .references _ => List Reference
  | .localReferences _ _ => List Reference
  | .resolve _ _ => Option Text
  | .trace _ _ => List Impact

/-- The answer to a question and the progress after it, whether the question could be answered or not. -/
def ask (w : Workspace) (p : Progress) : (q : Question) → Except Failure q.Answer × Progress
  | .load path => p.pose w (Query.load path)
  | .listing => p.pose w Query.listing
  | .tests path => p.pose w (Query.tests path)
  | .declarationAt path line => p.pose w (Query.declarationAt? path line)
  | .changedAt path line => p.pose w (Query.changedAt? path line)
  | .references d => p.pose w (Query.references d)
  | .localReferences path name => p.pose w (Query.localReferences path name)
  | .resolve importer specifier => p.pose w (Query.resolve importer specifier)
  | .trace diff path =>
    let (answer, session, tracer) := p.tracer.trace diff path w p.session
    (answer, ⟨session, tracer⟩)

/-- A question with its answer. -/
abbrev Answered : Type :=
  (q : Question) × Except Failure q.Answer

/-- A question with the answer of a project that has been asked nothing else. -/
def fresh (w : Workspace) (q : Question) : Answered :=
  ⟨q, (ask w {} q).1⟩

/-- Questions with their answers, asked one after the other. -/
def answers (w : Workspace) (p : Progress) : List Question → List Answered
  | [] => []
  | q :: qs => ⟨q, (ask w p q).1⟩ :: answers w (ask w p q).2 qs

variable {w : Workspace} {p : Progress}

/-- The step lemma: one question is answered as by a fresh project, and the next one finds the project
as fresh as this one did. -/
theorem ask_eq_fresh (hp : p.Shows w) (q : Question) :
    (ask w p q).1 = (ask w {} q).1 ∧ (ask w p q).2.Shows w := by
  cases q with
  | load path => exact hp.pose (Query.steady_load path)
  | listing => exact hp.pose Query.steady_listing
  | tests path => exact hp.pose (Query.steady_tests path)
  | declarationAt path line => exact hp.pose (Query.steady_declarationAt? path line)
  | changedAt path line => exact hp.pose (Query.steady_changedAt? path line)
  | references d => exact hp.pose (Query.steady_references d)
  | localReferences path name => exact hp.pose (Query.steady_localReferences path name)
  | resolve importer specifier => exact hp.pose (Query.steady_resolve importer specifier)
  | trace diff path =>
    -- A trace reads the session only, and writes to the tracer what it does not read.
    have hempty := Session.coherent_empty
    have h := Tracer.trace_eq hempty hempty hp.1 (.refl w {}) hp.2 diff path {} p.tracer
    exact ⟨h.1, h.2.2⟩

theorem answers_of_shows (hp : p.Shows w) (qs : List Question) :
    answers w p qs = qs.map (fresh w) := by
  induction qs generalizing p with
  | nil => rfl
  | cons q qs ih =>
    rcases ask_eq_fresh hp q with ⟨hanswer, hnext⟩
    rw [answers, List.map_cons, ih hnext, hanswer]
    rfl

/-- The run lemma: in whatever order a project is asked, and whichever questions fail, each question has
the answer that it has alone. -/
theorem answers_eq_fresh (w : Workspace) (qs : List Question) :
    answers w {} qs = qs.map (fresh w) :=
  answers_of_shows Workspace.shows_start qs

end Question

end AffectedTests
