import AffectedTests.Proofs.Decimals
import AffectedTests.Proofs.Hops
import AffectedTests.Proofs.Routes
/-!
# Identities in the graph

A node of the graph is a text, put together from a path, a name and a place. As long as no path holds two
colons side by side and no name of a declaration holds a colon or an at sign, the text tells what the node
stands for: `nodeId_inj` for declarations, `nodeIdOf_inj` for tests, and `nodeId_ne_nodeIdOf` keeps the two
apart.
-/

namespace AffectedTests

/-- A declaration whose file and name hold none of the marks that stand between them in the graph. -/
structure Declaration.Unmarked (d : Declaration) : Prop where
  file : ¬ ("::" : Text) <:+: d.file
  colon : (':' : CodePoint) ∉ d.name
  at_ : ('@' : CodePoint) ∉ d.name

/-- A file whose path and declarations hold none of the marks. -/
structure SourceFile.Unmarked (f : SourceFile) : Prop where
  path : ¬ ("::" : Text) <:+: f.path
  names : ∀ c ∈ f.top.preorder, ∀ d, c.declaration? f.path = .ok (some d) →
    (':' : CodePoint) ∉ d.name ∧ ('@' : CodePoint) ∉ d.name

/-- It is enough to look at the nodes that name something. -/
theorem SourceFile.unmarked_of_names {f : SourceFile} (hpath : ¬ ("::" : Text) <:+: f.path)
    (h : ∀ text ∈ f.top.preorder.filterMap fun c =>
      (Declaration.nameNode? c.tree).bind fun name => name.text.toOption,
        (':' : CodePoint) ∉ text ∧ ('@' : CodePoint) ∉ text) : f.Unmarked := by
  refine ⟨hpath, ?_⟩
  intro c hc d hd
  unfold Cursor.declaration? at hd
  split at hd
  · rename_i kind name hkind hname
    rcases Fallible.map_eq_ok.1 hd with ⟨text, htext, hd⟩
    cases hd
    refine h text (List.mem_filterMap.2 ⟨c, hc, ?_⟩)
    rw [hname, Option.bind_some, htext]
    rfl
  · cases hd

section Parts

variable {file file' rest rest' : Text}

theorem infix_of_append {a : Text} (h : ¬ ("::" : Text) <:+: file ++ a) (hne : a ≠ [])
    (heq : ("::" : Text) ++ rest = a ++ ("::" : Text) ++ rest') :
    ∃ tail, rest = (':' : CodePoint) :: tail := by
  -- What precedes the second mark is a colon, or it holds a mark itself.
  match a, hne with
  | [c], _ =>
    have hparts : (':' : CodePoint) = c ∧ ((':' : CodePoint) :: rest = ("::" : Text) ++ rest') :=
      List.cons.inj heq
    exact ⟨_, (List.cons.inj hparts.2).2⟩
  | c :: c' :: a, _ =>
    have hfirst : (':' : CodePoint) = c := (List.cons.inj heq).1
    have hsecond : (':' : CodePoint) = c' := (List.cons.inj (List.cons.inj heq).2).1
    refine absurd ⟨file, a, ?_⟩ h
    rw [← hfirst, ← hsecond, List.append_assoc]
    rfl

/-- The first mark of a text ends the path that it begins with. -/
theorem eq_of_mark_append (hfile : ¬ ("::" : Text) <:+: file) (hfile' : ¬ ("::" : Text) <:+: file')
    (hrest : ∀ tail, rest ≠ (':' : CodePoint) :: tail)
    (hrest' : ∀ tail, rest' ≠ (':' : CodePoint) :: tail)
    (h : file ++ ("::" : Text) ++ rest = file' ++ ("::" : Text) ++ rest') :
    file = file' ∧ rest = rest' := by
  have hsame : ∀ a, file' = file ++ a → a = [] → file = file' ∧ rest = rest' := by
    rintro a rfl rfl
    rw [List.append_nil] at h
    exact ⟨(List.append_nil file).symm, List.append_cancel_left h⟩
  rw [List.append_assoc, List.append_assoc] at h
  rcases List.append_eq_append_iff.1 h with ⟨a, rfl, ha⟩ | ⟨a, rfl, ha⟩
  · by_cases hnil : a = []
    · exact hsame a rfl hnil
    · rw [← List.append_assoc] at ha
      rcases infix_of_append hfile' hnil ha with ⟨tail, htail⟩
      exact absurd htail (hrest tail)
  · by_cases hnil : a = []
    · subst hnil
      exact hsame [] (by simp) rfl
    · rw [← List.append_assoc] at ha
      rcases infix_of_append hfile hnil ha with ⟨tail, htail⟩
      exact absurd htail (hrest' tail)

end Parts

theorem Text.ofNat_inj {m n : Nat} (h : Text.ofNat m = Text.ofNat n) : m = n := by
  rw [← Text.digitsValue_ofNat m, h, Text.digitsValue_ofNat]

namespace Declaration

variable {d d' : Declaration}

/-- What follows the path in the identity of a declaration. -/
def mark (d : Declaration) : Text :=
  d.name ++ ('@' : CodePoint) :: Text.ofNat d.startByte

theorem nodeId_eq (d : Declaration) : d.nodeId = d.file ++ ("::" : Text) ++ d.mark := by
  simp [nodeId, mark, Text.ofString]

theorem not_mem_mark (h : d.Unmarked) : (':' : CodePoint) ∉ d.mark := by
  have hdigits : (':' : CodePoint) ∉ Text.ofNat d.startByte := by
    intro hmem
    have hdigit := Text.isDigit_of_mem_ofNat hmem
    revert hdigit
    decide
  have hat : (':' : CodePoint) ≠ ('@' : CodePoint) := by decide
  unfold mark
  rw [List.mem_append, List.mem_cons]
  rintro (hname | heq | hmem)
  · exact h.colon hname
  · exact hat heq
  · exact hdigits hmem

theorem mark_ne_cons (h : d.Unmarked) (tail : Text) : d.mark ≠ (':' : CodePoint) :: tail := by
  intro heq
  refine not_mem_mark h ?_
  rw [heq]
  exact List.mem_cons_self

theorem mark_inj (h : d.Unmarked) (h' : d'.Unmarked) (heq : d.mark = d'.mark) :
    d.name = d'.name ∧ d.startByte = d'.startByte := by
  -- The first at sign ends the name.
  unfold mark at heq
  rcases List.append_eq_append_iff.1 heq with ⟨a, ha, hrest⟩ | ⟨a, ha, hrest⟩
  · cases a with
    | nil =>
      rw [List.append_nil] at ha
      exact ⟨ha.symm, Text.ofNat_inj (List.cons.inj hrest).2⟩
    | cons c a =>
      have hc : ('@' : CodePoint) = c := (List.cons.inj hrest).1
      exact absurd (by rw [ha, ← hc]; simp) h'.at_
  · cases a with
    | nil =>
      rw [List.append_nil] at ha
      exact ⟨ha, Text.ofNat_inj (List.cons.inj hrest).2.symm⟩
    | cons c a =>
      have hc : ('@' : CodePoint) = c := (List.cons.inj hrest).1
      exact absurd (by rw [ha, ← hc]; simp) h.at_

/-- The identity of a declaration tells its file, its name and its place. -/
theorem nodeId_inj (h : d.Unmarked) (h' : d'.Unmarked) (heq : d.nodeId = d'.nodeId) :
    d.file = d'.file ∧ d.name = d'.name ∧ d.startByte = d'.startByte := by
  rw [nodeId_eq, nodeId_eq] at heq
  rcases eq_of_mark_append h.file h'.file (mark_ne_cons h) (mark_ne_cons h') heq with ⟨hfile, hmark⟩
  exact ⟨hfile, mark_inj h h' hmark⟩

end Declaration

namespace TestDeclaration

variable {file file' name name' : Text} {d : Declaration}

theorem nodeIdOf_eq (file name : Text) :
    nodeIdOf file name = file ++ ("::" : Text) ++ (("test:" : Text) ++ name) := by
  simp [nodeIdOf, Text.ofString]

theorem test_ne_cons (name tail : Text) : ("test:" : Text) ++ name ≠ (':' : CodePoint) :: tail := by
  intro h
  have hne : ('t' : CodePoint) ≠ (':' : CodePoint) := by decide
  exact hne (List.cons.inj h).1

/-- The identity of a test tells its file and its name. -/
theorem nodeIdOf_inj (h : ¬ ("::" : Text) <:+: file) (h' : ¬ ("::" : Text) <:+: file')
    (heq : nodeIdOf file name = nodeIdOf file' name') : file = file' ∧ name = name' := by
  rw [nodeIdOf_eq, nodeIdOf_eq] at heq
  rcases eq_of_mark_append h h' (test_ne_cons name) (test_ne_cons name') heq with ⟨hfile, hname⟩
  exact ⟨hfile, List.append_cancel_left hname⟩

/-- No declaration has the identity of a test. -/
theorem nodeId_ne_nodeIdOf (h : d.Unmarked) (h' : ¬ ("::" : Text) <:+: file) :
    d.nodeId ≠ nodeIdOf file name := by
  intro heq
  rw [Declaration.nodeId_eq, nodeIdOf_eq] at heq
  rcases eq_of_mark_append h.file h' (Declaration.mark_ne_cons h) (test_ne_cons name) heq with
    ⟨-, hmark⟩
  refine Declaration.not_mem_mark h ?_
  rw [hmark]
  simp [Text.ofString]

end TestDeclaration

/-! ## Declarations in view -/

namespace Session

variable {w : Workspace} {s : Session} {d d' : Declaration}

theorem unmarked_of_declares (hunmarked : ∀ path f, s.fileOf w path = .ok f → f.Unmarked)
    (hd : s.Declares w d) : d.Unmarked := by
  rcases hd with ⟨⟨f, ⟨-, hf⟩, hpath, hw⟩, hmade⟩
  have hmarks := hunmarked f.path f hf
  rw [← hpath] at hmade
  rcases hmarks.names d.node (Tree.mem_preorder_iff.2 hw) d hmade with ⟨hcolon, hat⟩
  exact ⟨hpath ▸ hmarks.path, hcolon, hat⟩

/-- Declarations in view are known by their identities. -/
theorem eq_of_nodeId_eq (happart : ∀ path f, s.fileOf w path = .ok f → f.StartsApart)
    (hunmarked : ∀ path f, s.fileOf w path = .ok f → f.Unmarked)
    (hd : s.Declares w d) (hd' : s.Declares w d') (heq : d.nodeId = d'.nodeId) : d = d' := by
  rcases Declaration.nodeId_inj (unmarked_of_declares hunmarked hd)
    (unmarked_of_declares hunmarked hd') heq with ⟨hfile, -, hstart⟩
  exact eq_of_key_eq happart hd hd' (Prod.ext hfile hstart)

end Session

/-! ## Tests around uses -/

/-- A test that a node declares has the lines of the node, and is one of the file that it was looked up
for. -/
theorem Cursor.exists_name_of_test? {keywords : List Text} {file : Text} {c : Cursor} {t : TestDeclaration}
    (h : c.test? keywords file = .ok (some t)) : ∃ name, t = ⟨name, c.startLine, c.endLine, file⟩ := by
  unfold test? at h
  split at h
  · rcases Fallible.bind_eq_ok.1 h with ⟨isTest, -, h⟩
    cases isTest with
    | false => cases h
    | true =>
      rw [if_pos rfl] at h
      split at h
      · rcases Fallible.bind_eq_ok.1 h with ⟨name, -, h⟩
        cases h
        exact ⟨name, rfl⟩
      · cases h
  · cases h

theorem Cursor.file_of_test? {keywords : List Text} {file : Text} {c : Cursor} {t : TestDeclaration}
    (h : c.test? keywords file = .ok (some t)) : t.file = file := by
  rcases exists_name_of_test? h with ⟨name, rfl⟩
  rfl

/-- A reference stands inside a test of its own file. -/
theorem Reference.EntersTest.file {settings : Settings} {r : Reference} {t : TestDeclaration}
    (h : r.EntersTest settings t) : t.file = r.file := by
  rcases Fallible.findSomeM?_eq_ok_some h.2 with ⟨c, -, hc⟩
  exact Cursor.file_of_test? hc

namespace Touches

variable {w : Workspace} {s : Session} {d : Declaration} {t : TestDeclaration}

theorem exists_shows (hs : s.Coherent) (h : Touches w s d t) : ∃ c, s.Shows w t.file c := by
  rcases h with ⟨r, ⟨rs, hrs, hr⟩, htest⟩
  exact ⟨r.node, htest.file ▸ Query.shows_of_uses hs hrs r hr⟩

/-- The path of the file that the test stands in is resolved. -/
theorem resolve_file (hs : s.Coherent) (h : Touches w s d t) : Path.resolve t.file = .ok t.file := by
  rcases h.exists_shows hs with ⟨c, f, ⟨⟨path, hpath⟩, -⟩, hfile, -⟩
  exact Path.resolve_resolve (hfile ▸ hpath)

theorem unmarked (hs : s.Coherent)
    (hunmarked : ∀ path f, s.fileOf w path = .ok f → f.Unmarked) (h : Touches w s d t) :
    ¬ ("::" : Text) <:+: t.file := by
  rcases h.exists_shows hs with ⟨c, f, ⟨-, hf⟩, hpath, -⟩
  exact hpath ▸ (hunmarked f.path f hf).path

end Touches

end AffectedTests
