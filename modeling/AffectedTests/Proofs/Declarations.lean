import AffectedTests.Proofs.References
import Mathlib.Data.List.Nodup
/-!
# Declarations lie in files

The declarations that the analysis looks up are made by nodes of files in view: the one that a changed
line belongs to, and the ones around a node. In a file whose declarations begin at different places a
declaration is therefore known by its key.
-/

namespace AffectedTests

/-- No two declarations of a file begin at the same byte. -/
def SourceFile.StartsApart (f : SourceFile) : Prop :=
  ∀ c₁ ∈ f.top.preorder, ∀ c₂ ∈ f.top.preorder, ∀ d₁ d₂ : Declaration,
    c₁.declaration? f.path = .ok (some d₁) → c₂.declaration? f.path = .ok (some d₂) →
      d₁.startByte = d₂.startByte → c₁ = c₂

/-- A file that was not loaded before has the tree that the grammar gives it. -/
theorem Session.tree_of_fileOf {w : Workspace} {s : Session} {path : Text} {f : SourceFile}
    (hnew : s.files.get? path = none) (h : s.fileOf w path = .ok f) :
    f.tree = w.grammars f.language f.source := by
  unfold fileOf at h
  simp only [hnew] at h
  split at h
  · cases h
  · split at h
    · cases h
    · cases h
      rfl

/-- If the grammars give one tree to each of two sources and a third one to all others, such a file has one
of the three. -/
theorem Session.tree_of_fileOf_of_pair {w : Workspace} {s : Session} {path : Text} {f : SourceFile}
    {first second : Bytes} {firstTree secondTree other : Tree}
    (hgrammars : w.grammars = fun _ source =>
      if source = first then firstTree else if source = second then secondTree else other)
    (hnew : s.files.get? path = none) (h : s.fileOf w path = .ok f) :
    (f.source = first ∧ f.tree = firstTree) ∨ (f.source = second ∧ f.tree = secondTree) ∨
      f.tree = other := by
  rw [tree_of_fileOf hnew h, hgrammars]
  dsimp only
  split
  · exact .inl ⟨‹_›, rfl⟩
  · split
    · exact .inr (.inl ⟨‹_›, rfl⟩)
    · exact .inr (.inr rfl)

/-- It is enough to look at the nodes that are of the kind of a declaration. -/
theorem SourceFile.startsApart_of_nodup {f : SourceFile}
    (h : ((f.top.preorder.filter fun c => (DeclarationKind.ofKind? c.kind).isSome).map
      fun c => c.info.startByte).Nodup) : f.StartsApart := by
  have hkind : ∀ c ∈ f.top.preorder, ∀ d, c.declaration? f.path = .ok (some d) →
      d.node = c ∧ c ∈ f.top.preorder.filter fun c => (DeclarationKind.ofKind? c.kind).isSome := by
    intro c hc d hd
    unfold Cursor.declaration? at hd
    split at hd
    · rename_i kind name hkind hname
      rcases Fallible.map_eq_ok.1 hd with ⟨text, -, hd⟩
      cases hd
      exact ⟨rfl, List.mem_filter.2 ⟨hc, by rw [hkind]; rfl⟩⟩
    · cases hd
  intro c₁ hc₁ c₂ hc₂ d₁ d₂ hd₁ hd₂ hstart
  rcases hkind c₁ hc₁ d₁ hd₁ with ⟨rfl, hmem₁⟩
  rcases hkind c₂ hc₂ d₂ hd₂ with ⟨rfl, hmem₂⟩
  exact List.inj_on_of_nodup_map h hmem₁ hmem₂ hstart

/-- A declaration that a node of a file in view makes. -/
def Session.Declares (s : Session) (w : Workspace) (d : Declaration) : Prop :=
  s.Shows w d.file d.node ∧ d.node.declaration? d.file = .ok (some d)

namespace Cursor

variable {file : Text} {c : Cursor} {d : Declaration}

/-- A declaration carries the node that makes it. -/
theorem node_of_declaration? (h : c.declaration? file = .ok (some d)) :
    d.node = c ∧ d.file = file := by
  unfold declaration? at h
  split at h
  · rcases Fallible.map_eq_ok.1 h with ⟨text, -, hd⟩
    cases hd
    exact ⟨rfl, rfl⟩
  · cases h

theorem declaration?_of_visibleDeclaration? (h : c.visibleDeclaration? file = .ok (some d)) :
    c.declaration? file = .ok (some d) ∧ d.isVisible = .ok true := by
  rcases Fallible.bind_eq_ok.1 h with ⟨found, hfound, h⟩
  cases found with
  | none => cases h
  | some d' =>
    rcases Fallible.bind_eq_ok.1 h with ⟨visible, hvisible, h⟩
    cases visible with
    | true =>
      cases h
      exact ⟨hfound, hvisible⟩
    | false => cases h

theorem exists_of_enclosingDeclaration? (h : c.enclosingDeclaration? file = .ok (some d)) :
    ∃ p ∈ c.enclosing, p.declaration? file = .ok (some d) :=
  Fallible.findSomeM?_eq_ok_some h

theorem exists_of_enclosingVisible? (h : c.enclosingVisible? file = .ok (some d)) :
    ∃ p ∈ c.enclosing, p.declaration? file = .ok (some d) := by
  rcases Fallible.findSomeM?_eq_ok_some h with ⟨p, hp, hd⟩
  exact ⟨p, hp, (declaration?_of_visibleDeclaration? hd).1⟩

end Cursor

/-! ## The declaration at a line -/

namespace Tree

variable {root : Tree} {file : Text} {row : Int}

/-- What a search for a declaration has found so far is a declaration of the tree. -/
def FoundIn (root : Tree) (file : Text) (best : Option Declaration) : Prop :=
  ∀ d, best = some d → Cursor.Within root d.node ∧ d.node.declaration? file = .ok (some d)

theorem foundIn_none : FoundIn root file none := by
  intro d h
  cases h

theorem foundIn_of_smaller {best best' : Option Declaration} {c : Cursor}
    (hc : Cursor.Within root c) (hbest : FoundIn root file best)
    (h : smaller file best c = .ok best') : FoundIn root file best' := by
  rcases Fallible.map_eq_ok.1 h with ⟨found, hfound, hnew⟩
  have hmade : FoundIn root file found := by
    intro d hd
    rw [hd] at hfound
    have hnode := (Cursor.node_of_declaration? hfound).1
    rw [hnode]
    exact ⟨hc, hfound⟩
  -- The new declaration and the one found before are both made in the tree, so either may be kept.
  cases found with
  | none => exact hnew ▸ hbest
  | some d =>
    cases best with
    | none => exact hnew ▸ hmade
    | some b =>
      dsimp only at hnew
      split at hnew
      · exact hnew ▸ hmade
      · exact hnew ▸ hbest

mutual

theorem foundIn_of_smallestBelow : ∀ (t : Tree) (above : List Tree) (best best' : Option Declaration),
    Cursor.Within root ⟨t, above⟩ → FoundIn root file best →
      smallestBelow file row above t best = .ok best' → FoundIn root file best'
  | .node info children, above, best, best', hw, hbest, h => by
    rw [smallestBelow] at h
    rcases Fallible.bind_eq_ok.1 h with ⟨weighed, hweighed, h⟩
    have hchildren : ∀ t ∈ children, Cursor.Within root ⟨t, .node info children :: above⟩ :=
      fun t ht => hw.child ht
    refine foundIn_of_smallestBelowAll children _ weighed best' hchildren ?_ h
    refine Fallible.foldlM_keeps ?_ hbest hweighed
    intro t ht b b' hb hb'
    exact foundIn_of_smaller (hchildren t (List.mem_filter.1 ht).1) hb hb'

theorem foundIn_of_smallestBelowAll : ∀ (ts : List Tree) (above : List Tree)
    (best best' : Option Declaration), (∀ t ∈ ts, Cursor.Within root ⟨t, above⟩) →
      FoundIn root file best → smallestBelowAll file row above ts best = .ok best' →
        FoundIn root file best'
  | [], above, best, best', _, hbest, h => by
    rw [smallestBelowAll] at h
    exact Except.ok.inj h ▸ hbest
  | t :: rest, above, best, best', hw, hbest, h => by
    rw [smallestBelowAll] at h
    rcases Fallible.bind_eq_ok.1 h with ⟨later, hlater, h⟩
    have hlater' := foundIn_of_smallestBelowAll rest above best later
      (fun u hu => hw u (by simp [hu])) hbest hlater
    split at h
    · exact foundIn_of_smallestBelow t above later best' (hw t (by simp)) hlater' h
    · exact Except.ok.inj h ▸ hlater'

end

end Tree

namespace SourceFile

variable {f : SourceFile} {line : Int} {d : Declaration}

theorem within_of_declarationAt? (h : f.declarationAt? line = .ok (some d)) :
    Cursor.Within f.tree d.node ∧ d.node.declaration? f.path = .ok (some d) :=
  Tree.foundIn_of_smallestBelow f.tree [] none (some d) .root Tree.foundIn_none h d rfl

theorem within_of_changedAt? (h : f.changedAt? line = .ok (some d)) :
    Cursor.Within f.tree d.node ∧ d.node.declaration? f.path = .ok (some d) := by
  rcases Fallible.bind_eq_ok.1 h with ⟨found, hfound, h⟩
  cases found with
  | none => cases h
  | some d' =>
    have hd' := within_of_declarationAt? hfound
    rcases Fallible.bind_eq_ok.1 h with ⟨visible, -, h⟩
    cases visible with
    | true =>
      cases h
      exact hd'
    | false =>
      -- The declaration at the line cannot be seen from outside, so one around it is taken.
      rcases Cursor.exists_of_enclosingVisible? h with ⟨p, hp, hd⟩
      rw [(Cursor.node_of_declaration? hd).1]
      exact ⟨hd'.1.of_mem_enclosing hp, hd⟩

end SourceFile

/-! ## Declarations in view -/

namespace Session

variable {w : Workspace} {s : Session} {d d' : Declaration}

/-- A declaration around a node in view is in view. -/
theorem declares_of_mem_enclosing {file : Text} {c p : Cursor} (hc : s.Shows w file c)
    (hp : p ∈ c.enclosing) (hd : p.declaration? file = .ok (some d)) : s.Declares w d := by
  rcases hc with ⟨f, hf, hpath, hw⟩
  rcases Cursor.node_of_declaration? hd with ⟨hnode, hfile⟩
  have hshows : s.Shows w d.file d.node := by
    rw [hnode, hfile]
    exact ⟨f, hf, hpath, hw.of_mem_enclosing hp⟩
  have hmade : d.node.declaration? d.file = .ok (some d) := by
    rw [hnode, hfile, hd]
  exact ⟨hshows, hmade⟩

/-- If the declarations of every file in view begin at different places, the key of a declaration
determines it. -/
theorem eq_of_key_eq (happart : ∀ path f, s.fileOf w path = .ok f → f.StartsApart)
    (hd : s.Declares w d) (hd' : s.Declares w d') (hkey : d.key = d'.key) : d = d' := by
  rcases hd with ⟨⟨f, ⟨-, hf⟩, hpath, hw⟩, hmade⟩
  rcases hd' with ⟨⟨f', ⟨-, hf'⟩, hpath', hw'⟩, hmade'⟩
  have hfile : d.file = d'.file := congrArg Prod.fst hkey
  have hstart : d.startByte = d'.startByte := congrArg Prod.snd hkey
  have hsame : f = f' := by
    rw [hpath, hfile, ← hpath', hf'] at hf
    exact (Except.ok.inj hf).symm
  subst hsame
  -- In one file two nodes that make declarations at one byte are the same node.
  have hnode : d.node = d'.node := by
    refine happart f.path f hf d.node (Tree.mem_preorder_iff.2 hw) d'.node
      (Tree.mem_preorder_iff.2 hw') d d' ?_ ?_ hstart
    · rw [hpath, hmade]
    · rw [hpath, hfile, hmade']
  rw [hnode, hfile, hmade'] at hmade
  exact (Option.some.inj (Except.ok.inj hmade)).symm

end Session

namespace Query

variable {w : Workspace} {s : Session} {d : Declaration} {path : Text}

/-- The declaration at a changed line is in view, in the file at the path. -/
theorem declares_of_changedAt? (hs : s.Coherent) {line : Int}
    (h : (changedAt? path line).answer w s = .ok (some d)) :
    s.Declares w d ∧ Path.resolve path = .ok d.file := by
  refine Exists.elim (((steady_load path).answer_bind_eq_ok ?steady hs).1 h) ?found
  case steady =>
    intro file
    cases file with
    | none => exact steady_pure none
    | some file => exact steady_ofExcept _
  case found =>
  rintro loaded ⟨hload, h⟩
  cases loaded with
  | none => cases h
  | some file =>
    rcases Query.opens_of_answer_load hs hload with ⟨hresolve, hfile⟩
    have hd : file.changedAt? line = .ok (some d) := (answer_ofExcept _ w s).symm.trans h
    rcases SourceFile.within_of_changedAt? hd with ⟨hw, hmade⟩
    have hpath := (Cursor.node_of_declaration? hmade).2
    have hshows : s.Shows w d.file d.node := by
      rw [hpath]
      exact ⟨file, hfile, rfl, hw⟩
    have hmade' : d.node.declaration? d.file = .ok (some d) := by
      rw [hpath, hmade]
    exact ⟨⟨hshows, hmade'⟩, by rw [hpath, hresolve]⟩

end Query

/-! ## The changed declarations -/

namespace Tracing

variable {w : Workspace} {s : Session}

/-- Keeping each declaration once adds none. -/
theorem mem_of_mem_foldl_known {ds known : List Declaration} {d : Declaration}
    (h : d ∈ ds.foldl (fun known d =>
      if known.any fun k => k.key = d.key then known else known ++ [d]) known) :
    d ∈ known ∨ d ∈ ds := by
  induction ds generalizing known with
  | nil => exact .inl h
  | cons x ds ih =>
    rcases ih h with hd | hd
    · dsimp only at hd
      split at hd
      · exact .inl hd
      · rcases List.mem_append.1 hd with hd | hd
        · exact .inl hd
        · exact .inr (by simp_all)
    · exact .inr (by simp [hd])

/-- What the changed declarations are put together from: those that the added lines belong to. -/
theorem answer_changed_eq_ok (hs : s.Coherent) {diff : FileDiff} {path : Text}
    {seeds : List Declaration} :
    (changed diff path).answer w s = .ok seeds ↔ ∃ found,
      (diff.addedLines.mapM fun line => (Query.changedAt? path line.number).answer w s) = .ok found ∧
        seeds = (found.filterMap id).foldl (fun known d =>
          if known.any fun k => k.key = d.key then known else known ++ [d]) [] := by
  have hline : ∀ line : ChangedLine, Query.Steady (Query.changedAt? path line.number) :=
    fun line => Query.steady_changedAt? path line.number
  unfold changed
  rw [(Query.Steady.mapM hline _).answer_bind_eq_ok (fun _ => Query.steady_pure _) hs,
    Query.answer_mapM hline hs]
  constructor
  · rintro ⟨found, hfound, h⟩
    exact ⟨found, hfound, (Except.ok.inj h).symm⟩
  · rintro ⟨found, hfound, rfl⟩
    exact ⟨found, hfound, rfl⟩

/-- The changed declarations can be told if the one at each added line can. -/
theorem exists_changed_iff (hs : s.Coherent) {diff : FileDiff} {path : Text} :
    (∃ seeds, (changed diff path).answer w s = .ok seeds) ↔ ∀ line ∈ diff.addedLines,
      ∃ found, (Query.changedAt? path line.number).answer w s = .ok found := by
  rw [← Fallible.exists_mapM_eq_ok_iff]
  constructor
  · rintro ⟨seeds, h⟩
    rcases (answer_changed_eq_ok hs).1 h with ⟨found, hfound, -⟩
    exact ⟨found, hfound⟩
  · rintro ⟨found, hfound⟩
    exact ⟨_, (answer_changed_eq_ok hs).2 ⟨found, hfound, rfl⟩⟩

/-- Every changed declaration is in view, in the changed file. -/
theorem declares_and_resolve_of_changed (hs : s.Coherent) {diff : FileDiff} {path : Text}
    {seeds : List Declaration} (h : (changed diff path).answer w s = .ok seeds) :
    ∀ d ∈ seeds, s.Declares w d ∧ Path.resolve path = .ok d.file := by
  intro d hd
  rcases (answer_changed_eq_ok hs).1 h with ⟨found, hfound, rfl⟩
  rcases mem_of_mem_foldl_known hd with hd | hd
  · cases hd
  · rcases List.mem_filterMap.1 hd with ⟨o, ho, hod⟩
    rcases Fallible.mem_of_mapM_eq_ok hfound ho with ⟨line, -, hline⟩
    have hsome : o = some d := hod
    rw [hsome] at hline
    exact Query.declares_of_changedAt? hs hline

theorem declares_of_changed (hs : s.Coherent) {diff : FileDiff} {path : Text}
    {seeds : List Declaration} (h : (changed diff path).answer w s = .ok seeds) :
    ∀ d ∈ seeds, s.Declares w d :=
  fun d hd => (declares_and_resolve_of_changed hs h d hd).1

end Tracing

end AffectedTests
