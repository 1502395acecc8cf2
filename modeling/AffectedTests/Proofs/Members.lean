import AffectedTests.Proofs.OwnExports
/-!
# Members of exported classes

A method or field is a public member if it stands in the body of an exported class at the top level of a
module and is not private. The look-up goes by the nearest class declaration around the method or field,
whatever lies between the two: a method of an object literal, or of a class expression, passes for a
member of the class that the literal stands in. Everywhere else the look-up is right, and a change of a
line inside a method that is no public member belongs to the visible declaration around it. Classes are
those that a class declaration names; a class expression declares nothing.

- `Declaration.PublicMember`: what should be visible.
- `Declaration.isVisible_right_iff`: when the look-up says so.
-/

namespace AffectedTests

/-- A part of a member that makes it private: a modifier, or a name that only the class can use. -/
def Tree.Hides (t : Tree) : Prop :=
  (t.kind = .accessibilityModifier ∧ t.text = .ok (Text.ofString "private")) ∨
    t.kind = .privatePropertyIdentifier

namespace Declaration

variable {d owner : Declaration} {module_ : Cursor} {b : Bool}

def Private (d : Declaration) : Prop :=
  ∃ c ∈ d.node.tree.children, c.Hides

/-- A declaration stands in the body of a class. -/
def MemberOf (d owner : Declaration) : Prop :=
  ∃ body, d.node.parent? = some body ∧ body.kind = .other "class_body" ∧
    body.parent? = some owner.node ∧ owner.kind = .classLike ∧
      owner.node.declaration? d.file = .ok (some owner)

/-- The class declaration that is nearest around a declaration. -/
def NearestClass (d owner : Declaration) : Prop :=
  (d.node.enclosing.find? fun c => DeclarationKind.ofKind? c.kind = some .classLike) =
    some owner.node ∧ owner.node.declaration? d.file = .ok (some owner)

/-- A declaration at the top level of a module that exports it, under whatever name. -/
def ExportedAtTop (d : Declaration) : Prop :=
  ∃ module_ n, d.module? = some module_ ∧ d.ExportedAs module_ n

/-- A member of an exported class that is not private. -/
def PublicMember (d : Declaration) : Prop :=
  ¬ d.Private ∧ ∃ owner, d.MemberOf owner ∧ owner.ExportedAtTop

/-- The look-up answers, and tells the public members from the others. -/
def VisibleRightly (d : Declaration) : Prop :=
  ∃ b, d.isVisible = .ok b ∧ (b = true ↔ d.PublicMember)

/-! ## The class around a member -/

theorem private_iff_of_isPrivate (h : d.isPrivate = .ok b) : b = true ↔ d.Private := by
  rw [Fallible.eq_true_iff_of_anyM h]
  refine exists_congr fun c => and_congr_right fun _ => ?_
  unfold Tree.Hides
  by_cases hkind : c.kind = .accessibilityModifier
  · rw [if_pos hkind, hkind]
    cases c.text with
    | error failure => simp [bind, Except.bind]
    | ok text => simp [bind, Except.bind, pure, Except.pure]
  · rw [if_neg hkind]
    simp [hkind, pure, Except.pure]

theorem kind_of_declaration? {c : Cursor} {file : Text} (h : c.declaration? file = .ok (some d)) :
    DeclarationKind.ofKind? c.kind = some d.kind := by
  unfold Cursor.declaration? at h
  split at h
  · rename_i hkind _
    rcases Fallible.map_eq_ok.1 h with ⟨text, -, hd⟩
    cases hd
    exact hkind
  · cases h

theorem enclosingClass?_eq_some_iff : d.enclosingClass? = .ok (some owner) ↔ d.NearestClass owner := by
  unfold enclosingClass? NearestClass
  cases d.node.enclosing.find? fun c => DeclarationKind.ofKind? c.kind = some .classLike with
  | none => simp
  | some c =>
    constructor
    · intro h
      have hnode := (Cursor.node_of_declaration? h).1
      exact ⟨congrArg some hnode.symm, hnode ▸ h⟩
    · rintro ⟨hnode, h⟩
      cases hnode
      exact h

/-- The class whose body a member stands in is the nearest one around it. -/
theorem MemberOf.nearestClass (h : d.MemberOf owner) : d.NearestClass owner := by
  rcases h with ⟨body, hbody, hkind, howner, hclass, hmade⟩
  refine ⟨?_, hmade⟩
  rw [Cursor.enclosing_of_parent? hbody, Cursor.enclosing_of_parent? howner, List.find?_cons_of_neg,
    List.find?_cons_of_pos]
  · rw [kind_of_declaration? hmade, hclass]
    exact decide_eq_true rfl
  · rw [hkind]
    decide

/-! ## Exported classes -/

theorem isExported_eq_ok_iff :
    d.isExported = .ok b ↔ ∃ names, d.exportNames = .ok names ∧ b = !names.isEmpty := by
  unfold isExported
  rw [Fallible.map_eq_ok]
  simp only [eq_comm]

/-- At the top level of a module the look-up for exports is right. -/
theorem exportedAtTop_iff_of_module? (hm : d.module? = some module_) (h : d.isExported = .ok b) :
    b = true ↔ d.ExportedAtTop := by
  rcases isExported_eq_ok_iff.1 h with ⟨names, hnames, rfl⟩
  have hexported : d.ExportedAtTop ↔ ∃ n, d.ExportedAs module_ n := by
    unfold ExportedAtTop
    rw [hm]
    simp
  rw [hexported]
  -- An export statement around the declaration gives it a name; otherwise all names are found.
  cases hinline : d.inlineExport? with
  | some statement =>
    cases (exportNames_of_inlineExport? hinline).symm.trans hnames
    exact iff_of_true rfl ⟨_, .inline hinline⟩
  | none =>
    simp only [← mem_exportNames_iff hm hinline hnames]
    cases names with
    | nil => simp
    | cons name names => exact iff_of_true rfl ⟨name, List.mem_cons_self⟩

/-! ## Visible members -/

theorem NearestClass.unique {owner' : Declaration} (h : d.NearestClass owner)
    (h' : d.NearestClass owner') : owner = owner' := by
  rw [← enclosingClass?_eq_some_iff] at h h'
  cases h.symm.trans h'
  rfl

/-- What the look-up says of a method or field: it is hidden if it is private or if there is no class
around it, and as visible as the nearest class otherwise. -/
theorem isVisible_cases (hkind : d.kind.isMember = true) (h : d.isVisible = .ok b) :
    (d.Private ∧ b = false) ∨ (¬ d.Private ∧ (∀ owner, ¬ d.NearestClass owner) ∧ b = false) ∨
      (¬ d.Private ∧ ∃ owner, d.NearestClass owner ∧ owner.isExported = .ok b) := by
  unfold isVisible at h
  rw [if_pos hkind] at h
  rcases Fallible.bind_eq_ok.1 h with ⟨hidden, hhidden, h⟩
  have hprivate := private_iff_of_isPrivate hhidden
  cases hidden with
  | true =>
    cases h
    exact .inl ⟨hprivate.1 rfl, rfl⟩
  | false =>
    have hopen : ¬ d.Private := fun hd => Bool.false_ne_true (hprivate.2 hd)
    rcases Fallible.bind_eq_ok.1 h with ⟨found, hfound, h⟩
    cases found with
    | none =>
      cases h
      refine .inr (.inl ⟨hopen, fun owner howner => ?_, rfl⟩)
      cases hfound.symm.trans (enclosingClass?_eq_some_iff.2 howner)
    | some owner => exact .inr (.inr ⟨hopen, owner, enclosingClass?_eq_some_iff.1 hfound, h⟩)

/-- With an exported class around it a public member is one that stands in the body of that class. -/
theorem publicMember_iff (hprivate : ¬ d.Private) (hnearest : d.NearestClass owner) :
    d.PublicMember ↔ d.MemberOf owner ∧ owner.ExportedAtTop := by
  constructor
  · rintro ⟨-, owner', hmember, hexported⟩
    cases hmember.nearestClass.unique hnearest
    exact ⟨hmember, hexported⟩
  · rintro ⟨hmember, hexported⟩
    exact ⟨hprivate, owner, hmember, hexported⟩

theorem visibleRightly_iff (hkind : d.kind.isMember = true) :
    d.VisibleRightly ↔ (∃ b, d.isVisible = .ok b) ∧
      ∀ owner, d.NearestClass owner → owner.isExported = .ok true →
        d.Private ∨ (d.MemberOf owner ∧ owner.module?.isSome = true) := by
  unfold VisibleRightly
  rw [← exists_and_right]
  refine exists_congr fun b => and_congr_right fun hb => ?_
  rcases isVisible_cases hkind hb with
    ⟨hprivate, rfl⟩ | ⟨-, hnone, rfl⟩ | ⟨hprivate, owner, hnearest, hexported⟩
  · -- What is private is no public member, and it is not said to be visible.
    exact iff_of_true (iff_of_false Bool.false_ne_true fun hd => hd.1 hprivate)
      fun _ _ _ => .inl hprivate
  · refine iff_of_true (iff_of_false Bool.false_ne_true ?_)
      fun owner howner => absurd howner (hnone owner)
    rintro ⟨-, owner, hmember, -⟩
    exact hnone owner hmember.nearestClass
  · rw [publicMember_iff hprivate hnearest]
    constructor
    · rintro hright owner' hnearest' hexported'
      cases hnearest.unique hnearest'
      cases hexported.symm.trans hexported'
      rcases hright.1 rfl with ⟨hmember, module_, n, hm, -⟩
      exact .inr ⟨hmember, by rw [hm]; rfl⟩
    · -- The nearest class is the one that decides, so being visible is being exported there.
      intro hstands
      constructor
      · rintro rfl
        rcases (hstands owner hnearest hexported).resolve_left hprivate with ⟨hmember, htop⟩
        rcases Option.isSome_iff_exists.1 htop with ⟨module_, hm⟩
        exact ⟨hmember, (exportedAtTop_iff_of_module? hm hexported).1 rfl⟩
      · rintro ⟨-, hatTop⟩
        rcases hatTop with ⟨module_, n, hm, hn⟩
        exact (exportedAtTop_iff_of_module? hm hexported).2 ⟨module_, n, hm, hn⟩

/-- A change of a line inside a method or field that cannot be seen belongs to the nearest visible
declaration around it. -/
theorem changedAt?_of_isVisible_false {f : SourceFile} {line : Int} {found : Option Declaration}
    (hd : f.declarationAt? line = .ok (some d)) (hhidden : d.isVisible = .ok false)
    (hfound : d.node.enclosingVisible? f.path = .ok found) : f.changedAt? line = .ok found := by
  unfold SourceFile.changedAt?
  refine Fallible.bind_eq_ok.2 ⟨some d, hd, ?_⟩
  exact Fallible.bind_eq_ok.2 ⟨false, hhidden, hfound⟩

/-- Of a method or field the look-up tells rightly whether it is a public member exactly if it answers and
the declaration, unless it is private or the nearest class around it is not exported, stands in the body
of that class, and the class at the top level of a module. In these cases a change of a line inside a
method that is no public member belongs to the nearest visible declaration around it. -/
theorem isVisible_right_iff (hkind : d.kind.isMember = true) :
    (d.VisibleRightly ↔ (∃ b, d.isVisible = .ok b) ∧
      ∀ owner, d.NearestClass owner → owner.isExported = .ok true →
        d.Private ∨ (d.MemberOf owner ∧ owner.module?.isSome = true)) ∧
    (d.VisibleRightly → ¬ d.PublicMember → ∀ (f : SourceFile) (line : Int) (m : Declaration),
      f.declarationAt? line = .ok (some d) → d.node.enclosingVisible? f.path = .ok (some m) →
        f.changedAt? line = .ok (some m)) := by
  refine ⟨visibleRightly_iff hkind, ?_⟩
  rintro ⟨b, hb, hright⟩ hnot f line m hd hm
  have hhidden : b = false := Bool.eq_false_iff.2 fun htrue => hnot (hright.1 htrue)
  exact changedAt?_of_isVisible_false hd (hhidden ▸ hb) hm

end Declaration

/-! ## A method of an object that a member returns -/

namespace Returned

open Sample (block leaf)

/-- The method `k` of an object. -/
def method : Tree :=
  block .methodDefinition none 44 50 3 3 [leaf .propertyIdentifier (some .name) 44 45 3 [107]]

def object : Tree :=
  block (.other "object") none 36 57 2 4 [method]

def result : Tree :=
  block (.other "return_statement") none 29 58 2 4 [object]

def statements : Tree :=
  block (.other "statement_block") (some (.other "body")) 23 62 1 5 [result]

/-- The method `m` of a class, which returns the object. -/
def outer : Tree :=
  block .methodDefinition (some (.other "member")) 19 62 1 5 [
    leaf .propertyIdentifier (some .name) 19 20 1 [109], statements]

/-- The method `#p` of the class. -/
def hidden : Tree :=
  block .methodDefinition (some (.other "member")) 65 72 6 6 [
    leaf .privatePropertyIdentifier (some .name) 65 67 6 [35, 112]]

def members : Tree :=
  block (.other "class_body") (some (.other "body")) 15 74 0 7 [outer, hidden]

/-- The class `C`. -/
def classTree : Tree :=
  block .classDeclaration (some (.other "declaration")) 7 74 0 7 [
    leaf .identifier (some .name) 13 14 0 [67], members]

def statement : Tree :=
  block .exportStatement none 0 74 0 7 [classTree]

/-- A module that exports the class. -/
def tree : Tree :=
  block .program none 0 75 0 8 [statement]

def file : SourceFile :=
  ⟨"/p/a.js", .javascript, [], tree⟩

def owner : Declaration :=
  ⟨"C", .classLike, "/p/a.js", ⟨classTree, [statement, tree]⟩⟩

def member : Declaration :=
  ⟨"m", .method, "/p/a.js", ⟨outer, [members, classTree, statement, tree]⟩⟩

def privateMember : Declaration :=
  ⟨"#p", .method, "/p/a.js", ⟨hidden, [members, classTree, statement, tree]⟩⟩

/-- The method of the object: its class is nowhere in sight, but `C` is around it. -/
def returned : Declaration :=
  ⟨"k", .method, "/p/a.js",
    ⟨method, [object, result, statements, outer, members, classTree, statement, tree]⟩⟩

theorem nearestClass_member {d : Declaration} (h : member.NearestClass d) : d = owner :=
  h.unique ⟨rfl, rfl⟩

theorem private_privateMember : privateMember.Private :=
  ⟨_, List.mem_singleton_self _, .inr rfl⟩

theorem not_publicMember_returned : ¬ returned.PublicMember := by
  rintro ⟨-, d, ⟨body, hbody, hkind, -⟩, -⟩
  cases hbody
  exact absurd hkind (by decide)

/-- Of the members of the class the look-up tells rightly which are public, and a change inside the
private one belongs to the class. -/
theorem isVisible_right_members :
    member.isVisible = .ok true ∧ member.VisibleRightly ∧
    privateMember.isVisible = .ok false ∧ privateMember.VisibleRightly ∧
    file.changedAt? 7 = .ok (some owner) := by
  have hmember : member.VisibleRightly := by
    refine (Declaration.isVisible_right_iff (d := member) rfl).1.2 ⟨⟨true, rfl⟩, fun d hd _ => ?_⟩
    cases nearestClass_member hd
    exact .inr ⟨⟨_, rfl, rfl, rfl, rfl, rfl⟩, rfl⟩
  have hprivate : privateMember.VisibleRightly :=
    (Declaration.isVisible_right_iff (d := privateMember) rfl).1.2
      ⟨⟨false, rfl⟩, fun _ _ _ => .inl private_privateMember⟩
  refine ⟨rfl, hmember, rfl, hprivate, ?_⟩
  exact (Declaration.isVisible_right_iff (d := privateMember) rfl).2 hprivate
    (fun h => h.1 private_privateMember) file 7 owner rfl rfl

/-- The method of the object passes for a member of the class around it, and a change inside it does not
reach the method of the class that returns the object. -/
theorem not_isVisible_right_returned :
    returned.isVisible = .ok true ∧ file.changedAt? 4 = .ok (some returned) ∧
    returned.node.enclosingVisible? file.path = .ok (some member) ∧
    ¬ ∀ d : Declaration, d.kind.isMember = true →
      ∀ b, d.isVisible = .ok b → (b = true ↔ d.PublicMember) := by
  refine ⟨rfl, rfl, rfl, fun hall => ?_⟩
  exact not_publicMember_returned ((hall returned rfl true rfl).1 rfl)

end Returned

end AffectedTests
