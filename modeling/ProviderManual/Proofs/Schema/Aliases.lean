import ProviderManual.Proofs.Schema.Declarations
import ProviderManual.Proofs.Schema.RenamedReading

/-! Changing the name that a file imports a module under. -/

namespace ProviderManual.Source

open ProviderManual.Text ProviderManual.Schema

section Renaming

variable (old new : String)

def ImportSpec.rebind (spec : ImportSpec) : ImportSpec :=
  if spec.binding?.any (·.1 = old) then { spec with name := some new } else spec

def File.renameImport (f : File) : File :=
  { f with
    imports := f.imports.map (ImportSpec.rebind old new)
    funcs := f.funcs.map (Func.renameQualifier old new) }

end Renaming

def qualifier? : Node → Option String
  | .expr (.selector (.ident name) _) => some name
  | _ => none

def Func.qualifiers (f : Func) : List String :=
  (exprNodes f.results ++ f.nodes).filterMap qualifier?

/-- A name that an import of the file may be given, as nothing goes by it yet. -/
structure File.Admits (f : File) (name : String) : Prop where
  nonempty : name ≠ ""
  notBlank : name ≠ "_"
  unbound : ∀ b ∈ f.bindings, b.1 ≠ name
  unused : ∀ func ∈ f.funcs, name ∉ func.qualifiers

variable {old new : String}

section Imports

theorem ImportSpec.binding?_eq_some_iff {spec : ImportSpec} {b : String × String} :
    spec.binding? = some b ↔
      spec.name ≠ some "_" ∧ unquote spec.path = .ok b.2 ∧ b.1 = boundName spec.name b.2 := by
  obtain ⟨name, path⟩ := b
  unfold ImportSpec.binding?
  split
  · next hblank => simp [hblank]
  · next hblank =>
      cases unquote spec.path with
      | error e => simp
      | ok path' =>
          simp only [Option.some.injEq, Prod.mk.injEq, Except.ok.injEq, ne_eq, hblank,
            not_false_eq_true, true_and]
          constructor
          · rintro ⟨rfl, rfl⟩
            exact ⟨rfl, rfl⟩
          · rintro ⟨rfl, rfl⟩
            exact ⟨rfl, rfl⟩

theorem ImportSpec.binding?_rebind (hnonempty : new ≠ "") (hblank : new ≠ "_") (spec : ImportSpec) :
    (spec.rebind old new).binding? =
      spec.binding?.map fun b => (if b.1 = old then new else b.1, b.2) := by
  unfold ImportSpec.rebind
  cases hb : spec.binding? with
  | none => rw [if_neg (by simp), hb, Option.map_none]
  | some b =>
      rw [Option.any_some, Option.map_some]
      by_cases hold : b.1 = old
      · obtain ⟨-, hpath, -⟩ := ImportSpec.binding?_eq_some_iff.1 hb
        have hnamed : boundName (some new) b.2 = new := if_neg hnonempty
        rw [if_pos (decide_eq_true hold), if_pos hold, ImportSpec.binding?_eq_some_iff]
        exact ⟨by simpa using hblank, hpath, hnamed.symm⟩
      · rw [if_neg (by simpa using hold), if_neg hold, hb]

theorem ImportSpec.fault?_rebind (hblank : new ≠ "_") (spec : ImportSpec) :
    (spec.rebind old new).fault? = spec.fault? := by
  unfold ImportSpec.rebind
  split
  · next hbound =>
      obtain ⟨b, hb⟩ : ∃ b, spec.binding? = some b := by
        rw [← Option.isSome_iff_exists]
        exact Option.isSome_of_any hbound
      obtain ⟨hname, hpath, -⟩ := ImportSpec.binding?_eq_some_iff.1 hb
      simp [ImportSpec.fault?, hname, hpath, hblank]
  · rfl

variable {f : File}

theorem File.importError?_renameImport (hblank : new ≠ "_") :
    (f.renameImport old new).importError? = f.importError? := by
  have hfaults : ImportSpec.fault? ∘ ImportSpec.rebind old new = ImportSpec.fault? :=
    funext (ImportSpec.fault?_rebind hblank)
  simp only [File.importError?, File.renameImport, List.findSome?_map, hfaults]

theorem File.bindings_renameImport (hnonempty : new ≠ "") (hblank : new ≠ "_") :
    (f.renameImport old new).bindings =
      f.bindings.map fun b => (if b.1 = old then new else b.1, b.2) := by
  have hbindings : ImportSpec.binding? ∘ ImportSpec.rebind old new =
      fun spec => spec.binding?.map fun b => (if b.1 = old then new else b.1, b.2) :=
    funext (ImportSpec.binding?_rebind hnonempty hblank)
  simp only [File.bindings, File.renameImport, List.filterMap_map, hbindings, List.map_filterMap]

def BoundAlike (old new : String) (imports imports' : ImportMap) : Prop :=
  ∀ name, name ≠ new → imports'.get? (if name = old then new else name) = imports.get? name

theorem File.Admits.boundAlike (h : f.Admits new) :
    BoundAlike old new f.importMap (f.renameImport old new).importMap := by
  intro name hname
  have hkeys : ∀ b ∈ f.bindings,
      (if b.1 = old then new else b.1) = (if name = old then new else name) ↔ b.1 = name := by
    intro b hb
    have hb := h.unbound b hb
    split <;> split <;> grind
  have hfilter : f.bindings.filter (fun b => (if b.1 = old then new else b.1) =
      (if name = old then new else name)) = f.bindings.filter (·.1 = name) :=
    List.filter_congr fun b hb => decide_eq_decide.2 (hkeys b hb)
  rw [File.importMap, File.importMap, Table.get?_ofList, Table.get?_ofList,
    File.bindings_renameImport h.nonempty h.notBlank, List.filter_map, List.getLast?_map,
    Option.map_map]
  exact congrArg (fun bs => (List.getLast? bs).map Prod.snd) hfilter

end Imports

end ProviderManual.Source

namespace ProviderManual.Schema

open ProviderManual.Source ProviderManual.Text ProviderManual.Manual

variable {old new : String} {imports imports' : ImportMap}

theorem isQualified_renameQualifier (h : BoundAlike old new imports imports') (module symbol : String)
    {type : Expr} (htype : qualifier? (.expr type) ≠ some new) :
    imports'.isQualified module symbol (type.renameQualifier old new) =
      imports.isQualified module symbol type := by
  cases type with
  | selector x sel =>
      cases x with
      | ident name =>
          have hname : name ≠ new := fun heq => htype (congrArg some heq)
          simp only [Expr.renameQualifier, Expr.asKey, ImportMap.isQualified, h name hname]
      | composite type elements => cases type <;> rfl
      | _ => rfl
  | composite type elements => cases type <;> rfl
  | _ => rfl

theorem pointee_renameQualifier (x : Expr) :
    pointee (x.renameQualifier old new) = (pointee x).renameQualifier old new := by
  cases x with
  | composite type elements => cases type <;> rfl
  | _ => rfl

theorem self_mem_nodes (x : Expr) : .expr x ∈ x.nodes := by
  unfold Expr.nodes
  split <;> exact List.mem_cons_self

theorem pointee_mem_nodes (x : Expr) : .expr (pointee x) ∈ x.nodes := by
  cases x with
  | star x => exact List.mem_cons_of_mem _ (self_mem_nodes x)
  | _ => exact self_mem_nodes _

theorem qualifier?_ne_of_mem {f : Func} (hnew : new ∉ f.qualifiers) {n : Node}
    (hn : n ∈ exprNodes f.results ++ f.nodes) : qualifier? n ≠ some new :=
  fun h => hnew (List.mem_filterMap.2 ⟨n, hn, h⟩)

theorem classify_renameQualifier (h : BoundAlike old new imports imports') (modules : Modules)
    {f : Func} (hnew : new ∉ f.qualifiers) :
    classify (f.renameQualifier old new) imports' modules = classify f imports modules := by
  unfold classify
  cases hresults : f.results with
  | nil => simp only [Func.renameQualifier, hresults, renameQualifierExprs]
  | cons result results =>
      have hresult : qualifier? (.expr (pointee result)) ≠ some new := by
        refine qualifier?_ne_of_mem hnew (List.mem_append_left _ ?_)
        rw [hresults, exprNodes]
        exact List.mem_append_left _ (pointee_mem_nodes result)
      simp only [Func.renameQualifier, hresults, renameQualifierExprs, pointee_renameQualifier,
        isQualified_renameQualifier h _ _ hresult]

theorem literalOfType_renamed (h : BoundAlike old new imports imports') (modules : Modules)
    {f : Func} (hnew : new ∉ f.qualifiers) {n n' : Node} (hn : n ∈ f.nodes)
    (hrenamed : NodeRenamed old new n n') :
    literalOfType imports' modules n' =
      (literalOfType imports modules n).map (Literal.renameQualifier old new) := by
  cases hrenamed with
  | stmt | operand => rfl
  | expr x =>
      cases x with
      | composite type elements =>
          cases type with
          | none => rfl
          | some type =>
              have htype : qualifier? (.expr type) ≠ some new := by
                refine qualifier?_ne_of_mem hnew (List.mem_append_right _ ?_)
                rw [Func.nodes_eq] at hn ⊢
                refine (stmtNodes_section _ f.body hn).subset ?_
                exact List.mem_cons_of_mem _ (List.mem_append_left _ (self_mem_nodes type))
              simp only [Expr.renameQualifier, literalOfType, isQualified_renameQualifier h _ _ htype]
              split <;> rfl
      | _ => rfl

section Literals

variable {modules : Modules}

/-- Where in its listing a builder has the field schema that it returns. -/
def builderPlace (modules : Modules) (d : Decl) : Option Nat :=
  d.func.nodes.findIdx? fun n => (literalOfType d.imports modules n).isSome

theorem findSome?_eq_bind_findIdx? {α β : Type} (f : α → Option β) (xs : List α) :
    xs.findSome? f = (xs.findIdx? fun x => (f x).isSome).bind fun i => xs[i]?.bind f := by
  induction xs with
  | nil => rfl
  | cons x xs ih =>
      rw [List.findSome?_cons, List.findIdx?_cons]
      cases hx : f x with
      | some y => simp [hx]
      | none => simp [ih, Option.bind_map]

theorem builderLiteral_at_builderPlace (modules : Modules) (d : Decl) :
    builderLiteral modules d = (builderPlace modules d).bind fun i =>
      d.func.nodes[i]?.bind (literalOfType d.imports modules) := by
  rw [builderLiteral, search_eq]
  exact findSome?_eq_bind_findIdx? _ d.func.nodes

/-- The second declaration is the first one with a qualifier renamed, and is told to be of the same class;
its field schema is the same one, renamed. -/
structure DeclRenamed (modules : Modules) (old new : String) (d d' : Decl) : Prop where
  func : d'.func = d.func.renameQualifier old new
  file : d'.file = d.file
  classified : classify d'.func d'.imports modules = classify d.func d.imports modules
  place : builderPlace modules d' = builderPlace modules d
  literal : builderLiteral modules d' =
    (builderLiteral modules d).map (Literal.renameQualifier old new)

theorem declRenamed_renameQualifier (h : BoundAlike old new imports imports') (modules : Modules)
    {f : Func} (hnew : new ∉ f.qualifiers) (file : String) :
    DeclRenamed modules old new ⟨f, imports, file⟩ ⟨f.renameQualifier old new, imports', file⟩ := by
  have hlisting : List.Forall₂ (fun n n' => n ∈ f.nodes ∧ NodeRenamed old new n n') f.nodes
      (f.renameQualifier old new).nodes :=
    (List.forall₂_and_left f.nodes _).2 ⟨fun _ => id, f.listing_renameQualifier⟩
  have hliteral (n n' : Node) (hn : n ∈ f.nodes ∧ NodeRenamed old new n n') :
      literalOfType imports' modules n' =
        (literalOfType imports modules n).map (Literal.renameQualifier old new) :=
    literalOfType_renamed h modules hnew hn.1 hn.2
  refine ⟨rfl, rfl, classify_renameQualifier h modules hnew, ?_, ?_⟩
  · refine findIdx?_corresponding hlisting fun n n' hn => ?_
    dsimp only
    rw [hliteral n n' hn, Option.isSome_map]
  · rw [builderLiteral, builderLiteral, search_eq, search_eq, ← rel_map_iff]
    exact findSome?_corresponding hlisting fun n n' hn => rel_map_iff.2 (hliteral n n' hn)

theorem DeclRenamed.refl (modules : Modules) (name : String) (d : Decl) :
    DeclRenamed modules name name d d := by
  have hself : Literal.renameQualifier name name = id := by
    funext l
    obtain ⟨type, elements⟩ := l
    cases type <;>
      simp [Literal.renameQualifier, renameQualifierExprs_self, Expr.renameQualifier_self]
  refine ⟨(d.func.renameQualifier_self name).symm, rfl, rfl, rfl, ?_⟩
  rw [hself, Option.map_id, id]

end Literals

/-- The same file, apart from the name of an import. -/
inductive SameButName : File → File → Prop
  | refl (f : File) : SameButName f f
  | renamed {f : File} {new : String} (old : String) (h : f.Admits new) :
      SameButName f (f.renameImport old new)

section Indexes

variable {modules : Modules} {f f' : File} {index index' : Index}

def SameDecl (modules : Modules) (d d' : Decl) : Prop :=
  ∃ old new, DeclRenamed modules old new d d'

theorem decls_renameImport (old : String) (h : f.Admits new) (modules : Modules) :
    List.Forall₂ (DeclRenamed modules old new) f.decls (f.renameImport old new).decls := by
  simp only [File.decls, File.renameImport, List.map_map, List.forall₂_map_left_iff,
    List.forall₂_map_right_iff, List.forall₂_same]
  intro func hfunc
  exact declRenamed_renameQualifier h.boundAlike modules (h.unused func hfunc) f.path

theorem SameButName.decls (h : SameButName f f') (modules : Modules) :
    List.Forall₂ (SameDecl modules) f.decls f'.decls := by
  cases h with
  | refl => exact List.forall₂_same.2 fun d _ => ⟨"", "", .refl modules "" d⟩
  | renamed old h => exact (decls_renameImport old h modules).imp fun _ _ hd => ⟨old, _, hd⟩

theorem SameButName.importError?_eq (h : SameButName f f') : f'.importError? = f.importError? := by
  cases h with
  | refl => rfl
  | renamed old h => exact File.importError?_renameImport h.notBlank

theorem SameButName.path_eq (h : SameButName f f') : f'.path = f.path := by
  cases h <;> rfl

theorem SameButName.package_eq (h : SameButName f f') : f'.package = f.package := by
  cases h <;> rfl

def IndexAlike (modules : Modules) (index index' : Index) : Prop :=
  ∀ c name, Option.Rel (SameDecl modules) (index.declared c name) (index'.declared c name)

theorem IndexAlike.add (h : IndexAlike modules index index') {d d' : Decl}
    (hd : SameDecl modules d d') : IndexAlike modules (index.add modules d) (index'.add modules d') := by
  intro c name
  by_cases hc : c = .none
  · subst hc
    exact .none
  · have hnamed : d'.IsNamed modules c name ↔ d.IsNamed modules c name := by
      obtain ⟨old, new, hd⟩ := hd
      rw [Decl.IsNamed, Decl.IsNamed, hd.classified, hd.func]
      rfl
    rw [declared_add hc, declared_add hc]
    by_cases hn : d.IsNamed modules c name
    · rw [if_pos hn, if_pos (hnamed.2 hn)]
      exact .some hd
    · rw [if_neg hn, if_neg (mt hnamed.1 hn)]
      exact h c name

theorem IndexAlike.foldl {ds ds' : List Decl} (h : List.Forall₂ (SameDecl modules) ds ds')
    (hindex : IndexAlike modules index index') :
    IndexAlike modules (ds.foldl (Index.add modules) index) (ds'.foldl (Index.add modules) index') := by
  induction h generalizing index index' with
  | nil => exact hindex
  | cons hd _ ih => exact ih (hindex.add hd)

theorem IndexAlike.empty (modules : Modules) : IndexAlike modules .empty .empty := by
  intro c name
  cases c <;> exact .none

theorem forall₂_sortOn {α β : Type} {R : α → β → Prop} {key : α → String} {key' : β → String}
    (hkey : ∀ x y, R x y → key' y = key x) {xs : List α} {ys : List β} (h : List.Forall₂ R xs ys) :
    List.Forall₂ R (sortOn key xs) (sortOn key' ys) := by
  -- the pairs are sorted by the key that both have
  obtain ⟨pairs, hpairs, rfl, rfl⟩ : ∃ pairs : List (α × β), (∀ p ∈ pairs, R p.1 p.2) ∧
      xs = pairs.map Prod.fst ∧ ys = pairs.map Prod.snd := by
    induction h with
    | nil => exact ⟨[], by simp⟩
    | @cons x y xs ys hxy _ ih =>
        obtain ⟨pairs, hpairs, rfl, rfl⟩ := ih
        exact ⟨(x, y) :: pairs, by simpa using ⟨hxy, fun a b hab => hpairs (a, b) hab⟩, rfl, rfl⟩
  have hfst : sortOn key (pairs.map Prod.fst) = (sortOn (fun p => key p.1) pairs).map Prod.fst := by
    refine (List.map_mergeSort fun p _ q _ => ?_).symm
    rfl
  have hsnd : sortOn key' (pairs.map Prod.snd) = (sortOn (fun p => key p.1) pairs).map Prod.snd := by
    refine (List.map_mergeSort fun p hp q hq => ?_).symm
    rw [hkey p.1 p.2 (hpairs p hp), hkey q.1 q.2 (hpairs q hq)]
  rw [hfst, hsnd, List.forall₂_map_left_iff, List.forall₂_map_right_iff, List.forall₂_same]
  exact fun p hp => hpairs p ((sortOn_perm _ pairs).mem_iff.1 hp)

variable {files files' : List File}

theorem participants_alike (h : List.Forall₂ SameButName files files') (scan : ScanMode) :
    List.Forall₂ SameButName (Index.participants scan files) (Index.participants scan files') := by
  cases scan with
  | all => exact h
  | first =>
      cases h with
      | nil => exact .nil
      | @cons f f' fs fs' hf hfs =>
          refine List.rel_filter (fun g g' hg => ?_) (.cons hf hfs)
          simp only [decide_eq_true_eq, hf.package_eq, hg.package_eq]

theorem build_alike (h : List.Forall₂ SameButName files files') (modules : Modules) (scan : ScanMode) :
    (∃ e, Index.build modules scan files = .error e ∧ Index.build modules scan files' = .error e) ∨
    ∃ index index', Index.build modules scan files = .ok index ∧
      Index.build modules scan files' = .ok index' ∧ IndexAlike modules index index' := by
  have htaking := participants_alike (forall₂_sortOn (fun _ _ hf => hf.path_eq) h) scan
  rw [Index.build, Index.build, foldlM_addFile, foldlM_addFile]
  generalize Index.participants scan (sortOn File.path files) = taking at htaking ⊢
  generalize Index.participants scan (sortOn File.path files') = taking' at htaking ⊢
  have hfault : taking'.findSome? File.importError? = taking.findSome? File.importError? := by
    have hsame := findSome?_corresponding htaking fun f f' hf =>
      rel_map_iff.2 (hf.importError?_eq.trans Option.map_id_apply.symm)
    exact (rel_map_iff.1 hsame).trans Option.map_id_apply
  rw [hfault]
  cases taking.findSome? File.importError? with
  | some e => exact .inl ⟨e, rfl, rfl⟩
  | none =>
      refine .inr ⟨_, _, rfl, rfl, .foldl ?_ (.empty modules)⟩
      exact List.rel_flatMap htaking fun f f' hf => hf.decls modules

end Indexes

section Resolution

variable {index index' : Index} {modules : Modules}

theorem toOption_gather {α : Type} (os : List (Outcome α)) :
    (gather os).toOption = os.mapM Except.toOption := by
  induction os with
  | nil => rfl
  | cons o os ih =>
      rw [List.mapM_cons, ← ih]
      cases o with
      | ok a => rw [gather_ok_cons]; cases gather os <;> rfl
      | error es => rw [gather_error_cons]; rfl

theorem toOption_resolveAttributes (s : List String) (path : Path) (elements : List Expr) :
    (resolveAttributes index modules s path elements).toOption =
      ((elements.map fun x => (resolveElement index modules s path x).toOption).mapM id).map
        sortAttributes := by
  rw [resolveAttributes_eq, toOption_map, toOption_gather, List.mapM_map, List.mapM_map]
  rfl

theorem toOption_resolveElement (s : List String) (path : Path) (x : Expr) :
    (resolveElement index modules s path x).toOption = (elementParts x).toOption.bind fun p =>
      (fieldSource p.2).toOption.bind fun source => (match source with
        | .inline fields => buildAttribute index modules s (path ++ [p.1]) p.1 fields
        | .builder b => resolveBuilder index modules s (path ++ [p.1]) p.1 b).toOption := by
  rw [resolveElement_eq]
  cases elementParts x with
  | error e => rfl
  | ok p =>
      dsimp only [Except.toOption, Option.bind_some]
      cases fieldSource p.2 with
      | error e => rfl
      | ok source => cases source <;> rfl

theorem toOption_resolveBuilder (s : List String) (path : Path) (name b : String) :
    (resolveBuilder index modules s path name b).toOption =
      if b ∈ s then none
      else (index.schema? b).bind fun d => (builderLiteral modules d).bind fun l =>
        (buildAttribute index modules (b :: s) path name l.elements).toOption := by
  rw [resolveBuilder_eq]
  cases index.schema? b with
  | none => simp [Except.toOption]
  | some d =>
      dsimp only
      split
      · rfl
      · cases hl : builderLiteral modules d <;> simp [hl, Except.toOption]

theorem resolves_alike (hindex : IndexAlike modules index index') :
    (∀ s path elements, ∀ old new,
      (resolveAttributes index' modules s path (renameQualifierExprs old new elements)).toOption =
        (resolveAttributes index modules s path elements).toOption) ∧
    (∀ s path x, ∀ old new,
      (resolveElement index' modules s path (x.renameQualifier old new)).toOption =
        (resolveElement index modules s path x).toOption) ∧
    (∀ s path name b,
      (resolveBuilder index' modules s path name b).toOption =
        (resolveBuilder index modules s path name b).toOption) ∧
    (∀ s path name fields, ∀ old new,
      (buildAttribute index' modules s path name (renameQualifierExprs old new fields)).toOption =
        (buildAttribute index modules s path name fields).toOption) := by
  refine resolution_induct index modules ?_ ?_ ?_ ?_
  · intro s path elements ih old new
    have helements : (renameQualifierExprs old new elements).map (fun x =>
        (resolveElement index' modules s path x).toOption) =
          elements.map fun x => (resolveElement index modules s path x).toOption := by
      rw [renameQualifierExprs_eq, List.map_map]
      exact List.map_congr_left fun x hx => ih x hx old new
    rw [toOption_resolveAttributes, toOption_resolveAttributes, helements]
  · intro s path x hinline hbuilder old new
    rw [toOption_resolveElement, toOption_resolveElement, elementParts_renameQualifier,
      Option.bind_map]
    refine Option.bind_congr fun p hp => ?_
    dsimp only [Function.comp_apply]
    rw [fieldSource_renameQualifier, Option.bind_map]
    refine Option.bind_congr fun source hs => ?_
    rw [← eq_ok_iff_toOption] at hp hs
    cases source with
    | inline fields => exact hinline p.1 p.2 fields hp hs old new
    | builder b => exact hbuilder p.1 p.2 b hp hs
  · intro s path name b ih
    rw [toOption_resolveBuilder, toOption_resolveBuilder]
    split
    · rfl
    · next hb =>
        have hdeclared := hindex .schema b
        dsimp only [Index.declared] at hdeclared
        generalize index'.schema? b = o' at hdeclared ⊢
        cases hd : index.schema? b with
        | none =>
            rw [hd] at hdeclared
            cases hdeclared
            rfl
        | some d =>
            rw [hd] at hdeclared
            cases hdeclared with
            | some hsame =>
                obtain ⟨old, new, hsame⟩ := hsame
                rw [Option.bind_some, Option.bind_some, hsame.literal, Option.bind_map]
                exact Option.bind_congr fun l hl => ih d l hd hb hl old new
  · intro s path name fields ih old new
    refine Option.ext fun a => ?_
    rw [← eq_ok_iff_toOption, ← eq_ok_iff_toOption, buildAttribute_eq_ok_iff, buildAttribute_eq_ok_iff,
      describes_renameQualifier]
    refine and_congr_right fun _ => and_congr_right fun _ => ?_
    have hnested := @nestedSchema_renameQualifier old new fields
    cases hn : nestedSchema fields with
    | error e =>
        rw [hn] at hnested
        obtain ⟨e', hn'⟩ := exists_error_of_toOption hnested
        simp [hn']
    | ok l? =>
        rw [hn, Except.toOption, Option.map_some, ← eq_ok_iff_toOption] at hnested
        rw [hnested]
        cases l? with
        | none => simp
        | some l =>
            have hl : resolveAttributes index' modules s path (l.renameQualifier old new).elements =
                .ok a.attributes ↔ resolveAttributes index modules s path l.elements =
                  .ok a.attributes := by
              rw [eq_ok_iff_toOption, eq_ok_iff_toOption, ← ih l hn old new]
              rfl
            simpa using hl

end Resolution

end ProviderManual.Schema
