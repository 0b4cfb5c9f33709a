import BinderIdl.Proofs.Java.Scoping
import BinderIdl.Proofs.Parcel.Loading
import BinderIdl.Proofs.Parcel.Reading

/-! The locals of an operation: which variables its code brings into scope, and
under which names. A name that is derived from another ends in a word of a short
list, so names of different origin can be told apart. -/

namespace BinderIdl.Parcel

open Java BinderIdl.Types Emitter Block

variable {r : Registry} {d : Descriptor} {value parcel : Variable}
  {flags : WriteFlags}
variable {needed also : Bool} {needs keeps : List Variable}
  {tops locals : List String}

/-- The names that are derived from a name by some words. -/
def suffixed (owner : String) (words : List String) : List String :=
  words.map fun word => owner ++ "_" ++ word

theorem mem_suffixed_iff {owner word : String} {words : List String} :
    owner ++ "_" ++ word ∈ suffixed owner words ↔ word ∈ words := by
  simp [suffixed, String.append_right_inj]

theorem disjoint_suffixed {words others : List String}
    (apart : words.Disjoint others) (owner : String) :
    (suffixed owner words).Disjoint (suffixed owner others) := by
  intro name one other
  obtain ⟨word, listed, rfl⟩ := List.mem_map.mp one
  exact apart listed (mem_suffixed_iff.mp other)

theorem owner_not_mem_suffixed (owner : String) (words : List String) :
    owner ∉ suffixed owner words := by
  intro listed
  obtain ⟨word, _, same⟩ := List.mem_map.mp listed
  exact derived_ne_owner ⟨"", owner⟩ "" word (congrArg (Variable.mk "") same)

theorem suffixed_subset {words more : List String} (all : words ⊆ more)
    (owner : String) :
    suffixed owner words ⊆ suffixed owner more :=
  List.map_subset _ all

theorem underscore_mem_of_mem_suffixed {owner name : String}
    {words : List String} (listed : name ∈ suffixed owner words) :
    '_' ∈ name.toList := by
  obtain ⟨word, _, rfl⟩ := List.mem_map.mp listed
  simp

/-- The names of a value that is created as a whole. -/
def wholeNames (owner : String) :
    List String := owner :: suffixed owner ["binder"]

theorem wholeNames_derived (owner word : String) :
    wholeNames (owner ++ "_" ++ word) =
      suffixed owner [word, word ++ "_binder"] := by
  simp [wholeNames, suffixed, String.append_assoc]

/-- The words for what stands in a loop that takes elements off a parcel. -/
def elementWords : List String :=
  ["item", "item_binder", "key", "key_binder", "value", "value_binder"]

/-- The words for what stands in a loop that puts elements on a parcel. -/
def writtenWords : List String := ["item", "entry", "key", "value"]

/-- The names that are in scope behind code that creates a value. -/
def createdTops (owner : String) :
    List String := owner :: suffixed owner ["size", "binder"]

def createdNames (owner : String) : List String :=
  owner :: suffixed owner ("size" :: "binder" :: "i" :: elementWords)

def filledNames (owner : String) :
    List String := suffixed owner ("size" :: "i" :: elementWords)

def writtenNames (owner : String) : List String := suffixed owner writtenWords

/-- The emitter declares the class loader, if it is needed and not at hand, and
behind it gives code that introduces variables. -/
def Opens (needed : Bool) (needs keeps : List Variable)
    (tops locals : List String) (e : Emitter Unit) : Prop :=
  ∃ code, (∀ held, e (slot held) =
      ⟨acquireCode held needed ++ code, slot (held || needed), .ok ()⟩) ∧
    Introduces ((slot needed).toList ++ needs) keeps tops locals code

/-- The same for an emitter that finds the class loader at hand if
it is needed. -/
def Stays (needed : Bool) (needs keeps : List Variable)
    (tops locals : List String) (e : Emitter Unit) : Prop :=
  ∃ code,
    (∀ held : Bool,
      (needed → held) → e (slot held) = ⟨code, slot held, .ok ()⟩) ∧
    Introduces ((slot needed).toList ++ needs) keeps tops locals code

theorem slot_subset_slot (enough : needed → also) :
    (slot needed).toList ⊆ (slot also).toList := by
  cases needed with
  | false => exact List.nil_subset _
  | true =>
      rw [enough rfl]
      exact List.Subset.refl _

theorem Opens.mono {e : Emitter Unit} {needs' keeps' : List Variable}
    {tops' locals' : List String}
    (opens : Opens needed needs keeps tops locals e) (more : needs ⊆ needs')
    (fewer : keeps' ⊆ keeps) (top : tops ⊆ tops') (all : locals ⊆ locals') :
    Opens needed needs' keeps' tops' locals' e := by
  obtain ⟨code, run, introduces⟩ := opens
  exact ⟨code, run, introduces.mono
    (append_subset_append (List.Subset.refl _) more) fewer top all⟩

theorem Stays.mono {e : Emitter Unit} {needs' keeps' : List Variable}
    {tops' locals' : List String}
    (stays : Stays needed needs keeps tops locals e) (more : needs ⊆ needs')
    (fewer : keeps' ⊆ keeps) (top : tops ⊆ tops') (all : locals ⊆ locals') :
    Stays needed needs' keeps' tops' locals' e := by
  obtain ⟨code, run, introduces⟩ := stays
  exact ⟨code, run, introduces.mono
    (append_subset_append (List.Subset.refl _) more) fewer top all⟩

theorem Stays.weaken {e : Emitter Unit} {needs' : List Variable}
    (stays : Stays needed needs keeps tops locals e) (more : needs ⊆ needs') :
    Stays needed needs' keeps tops locals e :=
  stays.mono more (List.Subset.refl _) (List.Subset.refl _) (List.Subset.refl _)

theorem Opens.rename {e : Emitter Unit} {tops' locals' : List String}
    (opens : Opens needed needs keeps tops locals e) (top : tops ⊆ tops')
    (all : locals ⊆ locals') :
    Opens needed needs keeps tops' locals' e :=
  opens.mono (List.Subset.refl _) (List.Subset.refl _) top all

theorem opens_emitAll {code : Block}
    (introduces : Introduces needs keeps tops locals code) :
    Opens false needs keeps tops locals (emitAll code) := by
  refine ⟨code, fun held => ?_, introduces⟩
  rw [Bool.or_false]
  rfl

theorem opens_ofCode {result : Except MarshalError Block} {code : Block}
    (done : result = .ok code)
    (introduces : Introduces needs keeps tops locals code) :
    Opens false needs keeps tops locals (ofCode result) :=
  done ▸ opens_emitAll introduces

theorem opens_acquire (formed : r.WellFormed) {stmt : Variable → Stmt}
    (introduces : Introduces (loaderVariable :: needs) keeps tops locals
      [stmt loaderVariable]) :
    Opens true needs keeps tops locals (acquire r >>= fun loader =>
      emit (stmt loader)) := by
  refine ⟨[stmt loaderVariable], fun held => ?_, introduces⟩
  rw [run_bind_ok (by rw [acquire_slot formed]), acquire_slot formed,
    Bool.or_true]
  rfl

theorem opens_acquireIf (formed : r.WellFormed) {e : Emitter Unit}
    (stays : Stays needed needs keeps tops locals e) :
    Opens needed needs keeps tops locals (acquireIf r needed >>=
      fun _ => e) := by
  obtain ⟨code, run, introduces⟩ := stays
  exact ⟨code, fun held => run_acquireIf formed (run _ (by simp +contextual)),
    introduces⟩

theorem Opens.stays {e : Emitter Unit}
    (opens : Opens needed needs keeps tops locals e) (enough : needed → also) :
    Stays also needs keeps tops locals e := by
  obtain ⟨code, run, introduces⟩ := opens
  have loader :=
    append_subset_append (slot_subset_slot enough) (List.Subset.refl needs)
  refine ⟨code, fun held there => ?_, introduces.mono loader
    (List.Subset.refl _) (List.Subset.refl _) (List.Subset.refl _)⟩
  rw [run held]
  cases needed with
  | false => simp [acquireCode]
  | true =>
      obtain rfl := there (enough rfl)
      rfl

theorem Stays.bind {first second : Emitter Unit} {needs' keeps' : List Variable}
    {tops' locals' : List String}
    (before : Stays needed needs keeps tops locals first)
    (after : Stays needed needs' keeps' tops' locals' second)
    (enough : needs' ⊆ keeps ++ needs) (apart : tops.Disjoint locals') :
    Stays needed needs (keeps' ++ keeps) (tops ++ tops') (locals ++ locals')
      (first >>= fun _ => second) := by
  obtain ⟨code, run, introduces⟩ := before
  obtain ⟨rest, runRest, introducesRest⟩ := after
  refine ⟨code ++ rest, fun held there => ?_,
    introduces.append introducesRest ?_ fun _ => apart⟩
  · rw [run_bind_of_eq (run held there), runRest held there]
  · intro v listed
    have listed := append_subset_append (List.Subset.refl _) enough listed
    simp only [List.mem_append] at listed ⊢
    tauto

theorem Stays.bind_emit {first : Emitter Unit}
    (before : Stays needed needs keeps tops locals first) {stmt : Stmt}
    (silent : stmt.declared = []) (known : stmt.vars ⊆ keeps ++ needs) :
    Stays needed needs keeps tops locals (first >>= fun _ => emit stmt) := by
  have last : Introduces (keeps ++ needs) [] [] [] [stmt] :=
    introduces_of_declared_eq_nil (by simp [declared, silent])
      (by simpa [vars] using known)
  have after : Stays needed (keeps ++ needs) [] [] [] (emit stmt) :=
    (opens_emitAll last).stays nofun
  have both :=
    before.bind after (List.Subset.refl _) (List.disjoint_nil_right _)
  exact both.mono (List.Subset.refl _) (by simp) (by simp) (by simp)

theorem introduces_value {e : Expr} (known : e.vars ⊆ needs) :
    Introduces needs [value] (wholeNames value.name) (wholeNames value.name)
      [.declare value e] :=
  (introduces_declare known).mono (List.Subset.refl _) (List.Subset.refl _)
    (by simp [wholeNames]) (by simp [wholeNames])

theorem introduces_marked {present : Expr} (known : present.vars ⊆ [parcel]) :
    Introduces [parcel] [value] (wholeNames value.name) (wholeNames value.name)
      [.declareUnset value, createMarked value parcel present] := by
  have all : ∀ e ∈ [readMarker parcel, present, .null], e.vars ⊆ [parcel] := by
    simp [known, Expr.null, Expr.vars]
  exact (introduces_chosen all).mono (List.Subset.refl _) (List.Subset.refl _)
    (by simp [wholeNames]) (by simp [wholeNames])

theorem opens_createBinder (formed : r.WellFormed) (kind : BinderKind)
    (value parcel : Variable) :
    Opens false [parcel] [value] (wholeNames value.name) (wholeNames value.name)
      (createBinder r kind value parcel) := by
  cases kind with
  | interface =>
      simp only [createBinder, formed.require_builtIn (h := .binder) rfl,
        Emitter.ofExcept, pure_bind]
      refine opens_emitAll ?_
      have handle : (readBinder parcel).vars ⊆ [parcel] := by
        simp [readBinder, Expr.listVars]
      have first := introduces_declare (v := binderVariable value) handle
      have second :
          Introduces [binderVariable value] [value] [value.name] [value.name]
            [.declare value (.ternary (binderVariable value).isNotNull
              ((binderVariable value).call "queryLocalInterface"
                [(binderVariable value).call "getInterfaceDescriptor" []])
              .null)] :=
        introduces_declare (by simp [Expr.vars, Expr.listVars, Expr.null])
      have apart : [(binderVariable value).name].Disjoint [value.name] := by
        intro name one other
        have names :=
          (List.mem_singleton.mp one).symm.trans (List.mem_singleton.mp other)
        exact derived_ne_owner value value.type "binder"
          (congrArg (Variable.mk value.type) names)
      refine (first.append second (by simp) fun _ => apart).mono
        (List.Subset.refl _) (by simp) ?_ ?_
      · simp [wholeNames, suffixed, binderVariable, Variable.derived]
      · simp [wholeNames, suffixed, binderVariable, Variable.derived]
  | _ =>
      exact opens_emitAll
        (introduces_value (by simp [readBinder, Expr.vars, Expr.listVars]))

theorem opens_createWhole (formed : r.WellFormed) (whole : d.strategy.isWhole)
    (value parcel : Variable) :
    Opens d.strategy.looksUpClasses [parcel] [value] (wholeNames value.name)
      (wholeNames value.name) (createWhole r d value parcel) := by
  unfold createWhole
  cases strategy : d.strategy with
  | void | helper | generic => simp [strategy, Strategy.isWhole] at whole
  | primitive p =>
      have known : (createPrimitive p parcel).vars ⊆ [parcel] := by
        unfold createPrimitive
        split <;> simp [Expr.vars, Expr.listVars]
      exact opens_emitAll (introduces_value known)
  | charSequence =>
      simp only [createCharSequence, formed.require_builtIn (h := .textUtils)
        rfl, Emitter.ofExcept, pure_bind]
      exact opens_emitAll (introduces_marked (by
        simp [Expr.vars, Expr.listVars]))
  | parcelable =>
      exact opens_emitAll (introduces_marked (by
        simp [creatorExpr, Expr.vars, Expr.listVars]))
  | binder kind => exact opens_createBinder formed kind value parcel
  | map | list =>
      exact opens_acquire formed (introduces_value (by simp [Expr.listVars]))
  | genericList arguments element =>
      cases element with
      | untyped =>
          exact opens_acquire formed
            (introduces_value (by simp [Expr.listVars]))
      | _ =>
          exact opens_emitAll
            (introduces_value (by simp [Expr.vars, Expr.listVars]))
  | _ =>
      exact opens_emitAll (introduces_value (by
        simp [createException, createInterface, readBinder, Expr.vars,
          Expr.listVars]))

section Containers

variable {words : List String} {body : Emitter Unit} {code : Block}

theorem introduces_sizedLoop
    (inner : Introduces (indexVariable value :: needs) keeps tops
      (suffixed value.name words) code)
    (sized : sizeVariable value ∈ needs) (apart : "i" ∉ words) :
    Introduces needs [] [] (suffixed value.name ("i" :: words)) [sizedLoop value
      code] :=
  introduces_countUp (by simpa using sized) inner fun listed =>
    apart (mem_suffixed_iff.mp listed)

theorem introduces_sizedRead
    (inner : Introduces (indexVariable value :: needs) keeps tops
      (suffixed value.name words) code)
    (there : parcel ∈ needs) (apart : "size" ∉ words ∧ "i" ∉ words) :
    Introduces needs [] (suffixed value.name ["size"])
      (suffixed value.name ("size" :: "i" :: words))
      [readSize value parcel, sizedLoop value code] := by
  have size :
      Introduces needs [sizeVariable value] (suffixed value.name ["size"])
        (suffixed value.name ["size"]) [readSize value parcel] :=
    introduces_declare (by simpa [readInt, Expr.listVars] using there)
  have loop : Introduces (sizeVariable value :: needs) [] []
      (suffixed value.name ("i" :: words)) [sizedLoop value code] :=
    introduces_sizedLoop (inner.weaken (by simp)) List.mem_cons_self apart.2
  have both := size.append loop (List.Subset.refl _) fun _ => ?_
  · exact both.mono (List.Subset.refl _) (by simp) (by simp)
      (by simp [suffixed])
  · intro name one other
    obtain rfl := List.mem_singleton.mp one
    simpa [apart.1] using mem_suffixed_iff.mp other

theorem stays_createContainer {fresh : Expr}
    (inner : Stays needed [indexVariable value, value, parcel] keeps tops
      (suffixed value.name words) body)
    (known : fresh.vars ⊆ [sizeVariable value])
    (apart : "size" ∉ words ∧ "i" ∉ words) :
    Stays needed [parcel] [value] (value.name :: suffixed value.name ["size"])
      (value.name :: suffixed value.name ("size" :: "i" :: words))
      (createContainer value parcel fresh body) := by
  obtain ⟨code, run, introduces⟩ := inner
  refine ⟨createContainerCode value parcel fresh code,
    fun held there => run_createContainer (run held there), ?_⟩
  have loop : Introduces
      (sizeVariable value :: value :: ((slot needed).toList ++ [parcel])) [] []
      (suffixed value.name ("i" :: words)) [sizedLoop value code] := by
    apply introduces_sizedLoop (introduces.weaken _) List.mem_cons_self apart.2
    intro v listed
    simp only [List.mem_append, List.mem_cons] at listed ⊢
    tauto
  refine introduces_sized ?_ ?_ loop ?_ ⟨owner_not_mem_suffixed _ _, ?_⟩
  · simp [readInt, Expr.listVars]
  · simp only [List.forall_mem_cons]
    refine ⟨by simp [Expr.int, Expr.vars], by simp [Expr.null, Expr.vars], ?_,
      List.forall_mem_nil _⟩
    exact List.Subset.trans known (by simp)
  · exact fun same =>
      derived_ne_owner value value.type "size"
        (congrArg (Variable.mk value.type) same.symm)
  · intro listed
    simpa [apart.1] using mem_suffixed_iff.mp listed

theorem stays_refillContainer
    (inner : Stays needed [indexVariable value, value, parcel] keeps tops
      (suffixed value.name words) body) (apart : "size" ∉ words ∧ "i" ∉ words) :
    Stays needed [value, parcel] [] (suffixed value.name ["size"])
      (suffixed value.name ("size" :: "i" :: words))
      (refillContainer value parcel body) := by
  obtain ⟨code, run, introduces⟩ := inner
  refine ⟨refillContainerCode value parcel code,
    fun held there => run_refillContainer (run held there), ?_⟩
  have clear : Introduces ((slot needed).toList ++ [value, parcel]) [] [] []
      [.expr (value.call "clear" [])] :=
    introduces_of_declared_eq_nil rfl (by simp [vars, Stmt.vars, Expr.listVars])
  have rest : Introduces ((slot needed).toList ++ [value, parcel]) []
      (suffixed value.name ["size"])
      (suffixed value.name ("size" :: "i" :: words)) [readSize value parcel,
        sizedLoop value code] :=
    introduces_sizedRead (introduces.weaken (by simp)) (by simp) apart
  exact clear.append rest (List.Subset.refl _) fun _ => List.disjoint_nil_left _

theorem stays_createPart (formed : r.WellFormed) (whole : d.strategy.isWhole)
    (enough : d.strategy.looksUpClasses → needed) (value parcel : Variable)
    (type word : String) :
    Stays needed [parcel] [value.derived type word]
      (suffixed value.name [word, word ++ "_binder"])
      (suffixed value.name [word, word ++ "_binder"])
      (createWhole r d (value.derived type word) parcel) := by
  have made :=
    (opens_createWhole formed whole (value.derived type word) parcel).stays
      enough
  have names : wholeNames (value.derived type word).name =
      suffixed value.name [word, word ++ "_binder"] := wholeNames_derived _ _
  rwa [names] at made

theorem stays_fillElement (formed : r.WellFormed) {element : Descriptor}
    (whole : element.strategy.isWhole)
    (enough : element.strategy.looksUpClasses → needed)
    (value parcel : Variable) :
    Stays needed [indexVariable value, value, parcel]
      [itemVariable value element] (suffixed value.name ["item", "item_binder"])
      (suffixed value.name ["item", "item_binder"]) (fillElement value element
        fun item => createWhole r element item parcel) := by
  have made := stays_createPart formed whole enough value parcel
    element.qualifiedName "item"
  apply (made.weaken (by simp)).bind_emit rfl
  simp [addElement, Stmt.vars, Expr.listVars, itemVariable]

theorem stays_fillEntry (formed : r.WellFormed) {key val : Descriptor}
    (keyWhole : key.strategy.isWhole) (valueWhole : val.strategy.isWhole)
    (keyEnough : key.strategy.looksUpClasses → needed)
    (valueEnough : val.strategy.looksUpClasses → needed)
    (value parcel : Variable) :
    Stays needed [indexVariable value, value, parcel]
      [entryValueVariable value val, entryKeyVariable value key]
      (suffixed value.name ["key", "key_binder", "value", "value_binder"])
      (suffixed value.name ["key", "key_binder", "value", "value_binder"])
      (fillEntry value key val (fun v => createWhole r key v parcel)
        fun v => createWhole r val v parcel) := by
  have first := stays_createPart formed keyWhole keyEnough value parcel
    key.qualifiedName "key"
  have second := stays_createPart formed valueWhole valueEnough value parcel
    val.qualifiedName "value"
  have put :
      (putEntry value (entryKeyVariable value key)
        (entryValueVariable value val)).vars ⊆
        [entryValueVariable value val] ++ entryKeyVariable value key ::
          [indexVariable value, value, parcel] := by
    simp [putEntry, Stmt.vars, Expr.listVars]
  exact (first.weaken (by simp)).bind
    ((second.weaken (by simp)).bind_emit rfl put) (List.Subset.refl _)
    (disjoint_suffixed (by simp) _)

theorem stays_fillArray (formed : r.WellFormed) (whole : d.strategy.isWhole)
    (enough : d.strategy.looksUpClasses → needed) (value parcel : Variable) :
    Stays needed [indexVariable value, value, parcel] [itemVariable value d]
      (suffixed value.name ["item", "item_binder"])
      (suffixed value.name ["item", "item_binder"])
      (fillArray r d value parcel) := by
  have made :=
    stays_createPart formed whole enough value parcel d.qualifiedName "item"
  apply (made.weaken (by simp)).bind_emit rfl
  simp [Stmt.vars, Expr.vars, itemVariable]

end Containers

theorem needsClassLoader_of_looksUpClasses {arguments : TypeArguments}
    (generic : d.strategy = .generic arguments) {part : Handle}
    (listed : part ∈ arguments.handles) {e : Descriptor}
    (known : r.get? part = some e) (whole : e.strategy.isWhole)
    (looks : e.strategy.looksUpClasses) : r.needsClassLoader d := by
  rw [Registry.needsClassLoader_eq_any_parts generic]
  refine List.any_eq_true.mpr ⟨part, listed, ?_⟩
  rw [known, Option.any_some, needsClassLoader_of_isWhole whole, looks]

theorem stays_carriedElement (formed : r.WellFormed) {arguments : TypeArguments}
    {part : Handle} {element : Descriptor}
    (generic : d.strategy = .generic arguments)
    (single : arguments.handles = [part]) (known : r.get? part = some element)
    (whole : element.strategy.isWhole) (value parcel : Variable) :
    Stays (r.needsClassLoader d) [indexVariable value, value, parcel]
      [itemVariable value element] (suffixed value.name ["item", "item_binder"])
      (suffixed value.name ["item", "item_binder"]) (fillElement value element
        fun item => createWhole r element item parcel) :=
  stays_fillElement formed whole
    (needsClassLoader_of_looksUpClasses generic (by simp [single]) known whole)
    value parcel

theorem stays_carriedEntry (formed : r.WellFormed) {arguments : TypeArguments}
    {first second : Handle} {key val : Descriptor}
    (generic : d.strategy = .generic arguments)
    (pair : arguments.handles = [first, second])
    (keyKnown : r.get? first = some key) (keyWhole : key.strategy.isWhole)
    (valueKnown : r.get? second = some val) (valueWhole : val.strategy.isWhole)
    (value parcel : Variable) :
    Stays (r.needsClassLoader d) [indexVariable value, value, parcel]
      [entryValueVariable value val, entryKeyVariable value key]
      (suffixed value.name ["key", "key_binder", "value", "value_binder"])
      (suffixed value.name ["key", "key_binder", "value", "value_binder"])
      (fillEntry value key val (fun v => createWhole r key v parcel)
        fun v => createWhole r val v parcel) :=
  stays_fillEntry formed keyWhole valueWhole
    (needsClassLoader_of_looksUpClasses generic (by simp [pair]) keyKnown
      keyWhole) (needsClassLoader_of_looksUpClasses generic (by simp [pair])
          valueKnown valueWhole) value parcel

theorem size_i_not_mem {words : List String} (among : words ⊆ elementWords) :
    "size" ∉ words ∧ "i" ∉ words :=
  ⟨fun listed => absurd (among listed) (by decide),
    fun listed => absurd (among listed) (by decide)⟩

theorem opens_container (formed : r.WellFormed) {body : Emitter Unit}
    {words : List String}
    (fill : Stays needed [indexVariable value, value, parcel] keeps tops
      (suffixed value.name words) body)
    {fresh : Expr} (known : fresh.vars ⊆ [sizeVariable value])
    (among : words ⊆ elementWords) :
    Opens needed [parcel] [value] (createdTops value.name)
      (createdNames value.name) (acquireIf r needed >>= fun _ =>
        createContainer value parcel fresh body) := by
  have made := stays_createContainer fill known (size_i_not_mem among)
  apply (opens_acquireIf formed made).rename
  · exact List.cons_subset_cons _ (suffixed_subset (by simp) _)
  · refine List.cons_subset_cons _ (suffixed_subset ?_ _)
    exact List.cons_subset_cons _
      (List.subset_cons_of_subset _ (List.cons_subset_cons "i" among))

theorem opens_create (formed : r.WellFormed) (carried : r.Carried d)
    (value parcel : Variable) :
    Opens (r.needsClassLoader d) [parcel] [value] (createdTops value.name)
      (createdNames value.name) (create r d value parcel) := by
  unfold create
  cases carried with
  | whole whole =>
      rw [Registry.layout_of_isWhole r whole, needsClassLoader_of_isWhole whole]
      exact (opens_createWhole formed whole value parcel).rename
        (List.cons_subset_cons _ (suffixed_subset (by simp) _))
        (List.cons_subset_cons _ (suffixed_subset (by simp) _))
  | @elements element arguments part generic single known whole =>
      have fill :=
        stays_carriedElement formed generic single known whole value parcel
      rw [Registry.layout_of_elements generic single known whole]
      exact opens_container formed fill (by simp [Expr.vars, Expr.listVars])
        (by decide)
  | @entries key val arguments first second generic pair keyKnown keyWhole
      valueKnown valueWhole =>
      have fill := stays_carriedEntry formed generic pair keyKnown keyWhole
        valueKnown valueWhole value parcel
      rw [Registry.layout_of_entries generic pair keyKnown keyWhole valueKnown
        valueWhole]
      exact opens_container formed fill (by simp [Expr.vars, Expr.listVars])
        (by decide)

theorem opens_createArray (formed : r.WellFormed) (array : d.canBeArray)
    (value parcel : Variable) :
    Opens (r.needsClassLoader d) [parcel] [value] (createdTops value.name)
      (createdNames value.name) (createArray r d value parcel) := by
  have simple {method : String} {arguments : List Expr}
      (none : r.needsClassLoader d = false)
      (known : Expr.listVars arguments = []) : Opens (r.needsClassLoader d)
        [parcel] [value] (createdTops value.name) (createdNames value.name)
        (emit (.declare value (parcel.call method arguments))) := by
    rw [none]
    exact (opens_emitAll (introduces_value (by simp [known]))).rename
      (List.cons_subset_cons _ (suffixed_subset (by simp) _))
      (List.cons_subset_cons _ (suffixed_subset (by simp) _))
  have whole := Descriptor.isWhole_of_canBeArray array
  have needs := needsClassLoader_of_isWhole (r := r) whole
  unfold createArray
  cases d.strategy_of_canBeArray array with
  | primitive p strategy =>
      simp only [strategy]
      exact simple (by rw [needs, strategy]; rfl) rfl
  | string strategy =>
      simp only [strategy]
      exact simple (by rw [needs, strategy]; rfl) rfl
  | binder strategy =>
      simp only [strategy]
      exact simple (by rw [needs, strategy]; rfl) rfl
  | record strategy =>
      simp only [strategy]
      exact simple (by rw [needs, strategy]; rfl) rfl
  | list arguments element strategy =>
      have fill := stays_fillArray formed whole
        (fun looks => needs.trans looks) value parcel
      simp only [strategy]
      exact opens_container formed fill (by simp [Expr.vars]) (by decide)

theorem opens_silent {stmt : Stmt} (silent : stmt.declared = [])
    (known : stmt.vars ⊆ needs) :
    Opens false needs [] [] [] (emit stmt) :=
  opens_emitAll (introduces_of_declared_eq_nil (by simp [declared, silent])
    (by simpa [vars]))

theorem opens_readWhole (formed : r.WellFormed)
    (fillable : d.strategy.isFillable) (value parcel : Variable) :
    Opens d.strategy.looksUpClasses [value, parcel] [] [] []
      (readWhole r d value parcel) := by
  unfold readWhole
  cases strategy : d.strategy with
  | map | list =>
      exact opens_acquire formed (introduces_of_declared_eq_nil rfl
        (by simp [vars, Stmt.vars, Expr.listVars]))
  | parcelable =>
      exact opens_silent rfl
        (by simp [readRecord, Stmt.vars, vars, Expr.listVars])
  | genericList arguments element =>
      cases element with
      | untyped =>
          exact opens_acquire formed (introduces_of_declared_eq_nil rfl
            (by simp [vars, Stmt.vars, Expr.listVars]))
      | _ =>
          exact opens_silent rfl (by simp [Stmt.vars, Expr.vars, Expr.listVars])
  | _ => simp [strategy, Strategy.isFillable] at fillable

theorem opens_refill (formed : r.WellFormed) {body : Emitter Unit}
    {words : List String}
    (fill : Stays needed [indexVariable value, value, parcel] keeps tops
      (suffixed value.name words) body)
    (among : words ⊆ elementWords) :
    Opens needed [value, parcel] [] (suffixed value.name ["size"])
      (filledNames value.name) (acquireIf r needed >>= fun _ =>
        refillContainer value parcel body) := by
  have made := stays_refillContainer fill (size_i_not_mem among)
  apply (opens_acquireIf formed made).rename (List.Subset.refl _)
  exact suffixed_subset
    (List.cons_subset_cons _ (List.cons_subset_cons _ among)) _

theorem opens_read (formed : r.WellFormed) {h : Handle}
    (known : r.get? h = some d) (carried : r.Carried d) (fit : d.canBeOut)
    (value parcel : Variable) :
    Opens (r.needsClassLoader d) [value, parcel] []
      (suffixed value.name ["size"]) (filledNames value.name)
      (read r d value parcel) := by
  unfold read
  rw [if_pos fit]
  cases carried with
  | whole whole =>
      have fillable := formed.isFillable_of_canBeOut known whole fit
      rw [Registry.layout_of_isWhole r whole, needsClassLoader_of_isWhole whole]
      exact (opens_readWhole formed fillable value parcel).rename (by simp)
        (by simp)
  | @elements element arguments part generic single known whole =>
      have fill :=
        stays_carriedElement formed generic single known whole value parcel
      rw [Registry.layout_of_elements generic single known whole]
      exact opens_refill formed fill (by decide)
  | @entries key val arguments first second generic pair keyKnown keyWhole
      valueKnown valueWhole =>
      have fill := stays_carriedEntry formed generic pair keyKnown keyWhole
        valueKnown valueWhole value parcel
      rw [Registry.layout_of_entries generic pair keyKnown keyWhole valueKnown
        valueWhole]
      exact opens_refill formed fill (by decide)

theorem stays_refillArray (formed : r.WellFormed) {h : Handle}
    (known : r.get? h = some d) (whole : d.strategy.isWhole) (fit : d.canBeOut)
    (value parcel : Variable) :
    Stays (r.needsClassLoader d) [indexVariable value, value, parcel]
      [itemVariable value d] (suffixed value.name ["item"])
      (suffixed value.name ["item"]) (refillArray r d value parcel) := by
  have fillable := formed.isFillable_of_canBeOut known whole fit
  have item : Stays (r.needsClassLoader d) [indexVariable value, value, parcel]
      [itemVariable value d] (suffixed value.name ["item"])
      (suffixed value.name ["item"]) (emit (.declare (itemVariable value d)
        (.index value.ref (indexVariable value).ref))) :=
    (opens_emitAll (introduces_declare (by simp [Expr.vars]))).stays nofun
  have filled : Stays (r.needsClassLoader d) [itemVariable value d, parcel] []
      [] [] (read r d (itemVariable value d) parcel) := by
    rw [read, if_pos fit, Registry.layout_of_isWhole r whole]
    exact (opens_readWhole formed fillable _ parcel).stays
      (needsClassLoader_of_isWhole whole).trans
  exact (item.bind filled (by simp) (List.disjoint_nil_right _)).mono
    (List.Subset.refl _) (by simp) (by simp) (by simp)

theorem opens_readArray (formed : r.WellFormed) {h : Handle}
    (known : r.get? h = some d) (array : d.canBeArray)
    (value parcel : Variable) :
    Opens (r.needsClassLoader d) [value, parcel] []
      (suffixed value.name ["size"]) (filledNames value.name)
      (readArray r d value parcel) := by
  have whole := Descriptor.isWhole_of_canBeArray array
  have needs := needsClassLoader_of_isWhole (r := r) whole
  have simple {method : String} {others : List Expr}
      (none : r.needsClassLoader d = false)
      (known : Expr.listVars others = []) : Opens (r.needsClassLoader d) [value,
        parcel] [] (suffixed value.name ["size"]) (filledNames value.name)
        (emit (.expr (parcel.call method (value.ref :: others)))) := by
    rw [none]
    exact (opens_silent rfl (by simp [Stmt.vars, Expr.listVars, known])).rename
      (by simp) (by simp)
  unfold readArray
  cases d.strategy_of_canBeArray array with
  | primitive p strategy =>
      simp only [strategy]
      exact simple (by rw [needs, strategy]; rfl) rfl
  | string strategy =>
      simp only [strategy]
      exact simple (by rw [needs, strategy]; rfl) rfl
  | binder strategy =>
      simp only [strategy]
      exact simple (by rw [needs, strategy]; rfl) rfl
  | record strategy =>
      simp only [strategy]
      exact simple (by rw [needs, strategy]; rfl) rfl
  | list arguments element strategy =>
      have fit := formed.canBeOut_of_genericList known strategy
      have stays : Stays (r.needsClassLoader d) [value, parcel] []
          (suffixed value.name ["size"])
          (suffixed value.name ["size", "i", "item"])
          (emit (readSize value parcel) >>= fun _ =>
            nested (refillArray r d value parcel) >>= fun code =>
              emit (sizedLoop value code)) := by
        obtain ⟨code, run, introduces⟩ :=
          stays_refillArray formed known whole fit value parcel
        refine ⟨[readSize value parcel, sizedLoop value code], fun held there =>
          ?_, introduces_sizedRead (introduces.weaken (by simp)) (by simp)
            (by decide)⟩
        rw [run_bind_of_eq (run_emit _ _), run_nested_emit (run held there)]
        rfl
      simp only [strategy]
      exact (opens_acquireIf formed stays).rename (List.Subset.refl _)
        (suffixed_subset (by decide) _)

theorem exists_introduces_writeWhole (formed : r.WellFormed)
    (whole : d.strategy.isWhole) (value parcel : Variable)
    (flags : WriteFlags) :
    ∃ code, writeWhole r d value parcel flags = .ok code ∧
      Introduces [value, parcel] [] [] [] code := by
  obtain ⟨code, written⟩ := exists_writeWhole formed whole value parcel flags
  obtain ⟨silent, known⟩ := silent_writeWhole formed written
  exact ⟨code, written, introduces_of_declared_eq_nil silent known⟩

theorem introduces_writeSized {size : Expr} (known : size.vars ⊆ [value])
    {body : Block} (inner : Introduces [value, parcel] keeps tops locals body) :
    Introduces [value, parcel] [] [] locals [writeSized value parcel size
      body] := by
  have null :
      Introduces [value, parcel] [] [] [] [writeInt parcel (.int (-1))] :=
    introduces_of_declared_eq_nil rfl (by simp [vars, Expr.int, Expr.vars])
  have count : Introduces [value, parcel] [] [] [] [writeInt parcel size] :=
    introduces_of_declared_eq_nil rfl (by
      simpa [vars] using List.Subset.trans known (by simp))
  have present := count.append inner (by simp) fun _ => List.disjoint_nil_left _
  exact introduces_ifElse (by simp) null present

theorem introduces_writtenElements {element : Descriptor} {size : Expr}
    (known : size.vars ⊆ [value]) {body : Block}
    (inner : Introduces [itemVariable value element, parcel] [] [] [] body) :
    Introduces [value, parcel] [] [] (writtenNames value.name) [writeSized value
      parcel size [.forEach (itemVariable value element) value.ref body]] := by
  have loop :
      Introduces [value, parcel] [] [] [(itemVariable value element).name]
        [.forEach (itemVariable value element) value.ref body] :=
    introduces_forEach (by simp) (inner.weaken (by simp)) (by simp)
  apply (introduces_writeSized known loop).rename (by simp)
  simp [writtenNames, suffixed, writtenWords, itemVariable, Variable.derived]

theorem introduces_writtenEntries {key val : Descriptor}
    {keyCode valueCode : Block}
    (keys : Introduces [entryKeyVariable value key, parcel] [] [] [] keyCode)
    (values :
      Introduces [entryValueVariable value val, parcel] [] [] [] valueCode) :
    let entry := entryVariable value d
    Introduces [value, parcel] [] [] (writtenNames value.name) [writeSized value
      parcel (value.call "size" []) [.forEach entry (value.call "entrySet" [])
        (.declare (entryKeyVariable value key) (entry.call "getKey" []) ::
          .declare (entryValueVariable value val) (entry.call "getValue" []) ::
          (keyCode ++ valueCode))]] := by
  intro entry
  let keyLocal := entryKeyVariable value key
  let valueLocal := entryValueVariable value val
  have codes : Introduces [valueLocal, keyLocal, entry, value, parcel] [] [] []
      (keyCode ++ valueCode) :=
    (keys.weaken (by simp [keyLocal])).append
      (values.weaken (by simp [valueLocal])) (List.Subset.refl _) fun _ =>
        List.disjoint_nil_left _
  have valueDeclared : Introduces [keyLocal, entry, value, parcel] _ _ _
      [.declare valueLocal (entry.call "getValue" [])] :=
    introduces_declare (by simp [Expr.listVars])
  have keyDeclared : Introduces [entry, value, parcel] _ _ _
      [.declare keyLocal (entry.call "getKey" [])] :=
    introduces_declare (by simp [Expr.listVars])
  have apart : keyLocal.name ≠ valueLocal.name := by
    simp [keyLocal, valueLocal, entryKeyVariable, entryValueVariable,
      Variable.derived]
  have pairs :=
    keyDeclared.append
      (valueDeclared.append codes (List.Subset.refl _) fun _ =>
        List.disjoint_nil_right _)
      (List.Subset.refl _) fun _ => by simpa using apart.symm
  have loop : Introduces [value, parcel] [] [] _ [.forEach entry
      (value.call "entrySet" []) _] :=
    introduces_forEach (by simp [Expr.listVars]) pairs (by
      simp [entry, keyLocal, valueLocal, entryVariable, entryKeyVariable,
        entryValueVariable, Variable.derived])
  apply (introduces_writeSized (by simp [Expr.listVars]) loop).rename (by simp)
  simp [writtenNames, suffixed, writtenWords, entry, keyLocal, valueLocal,
    entryVariable, entryKeyVariable, entryValueVariable, Variable.derived]

theorem exists_introduces_write (formed : r.WellFormed) (carried : r.Carried d)
    (value parcel : Variable) (flags : WriteFlags) :
    ∃ code, write r d value parcel flags = .ok code ∧
      Introduces [value, parcel] [] [] (writtenNames value.name) code := by
  unfold write
  cases carried with
  | whole whole =>
      rw [Registry.layout_of_isWhole r whole]
      obtain ⟨code, written, introduces⟩ :=
        exists_introduces_writeWhole formed whole value parcel flags
      exact ⟨code, written, introduces.rename (by simp) (by simp)⟩
  | @elements element _ _ generic single known whole =>
      rw [Registry.layout_of_elements generic single known whole]
      obtain ⟨body, written, introduces⟩ :=
        exists_introduces_writeWhole formed whole (itemVariable value element)
          parcel flags
      have sized : Introduces _ [] [] _ [writeSized value parcel
          (value.call "size" []) _] :=
        introduces_writtenElements (by simp [Expr.listVars]) introduces
      refine ⟨_, ?_, sized⟩
      simp [Layout.write, Layout.type, written, bind, Except.bind, pure,
        Except.pure]
  | @entries key val _ _ _ generic pair keyKnown keyWhole valueKnown
      valueWhole =>
      rw [Registry.layout_of_entries generic pair keyKnown keyWhole valueKnown
        valueWhole]
      obtain ⟨keyCode, keyWritten, keyIntroduces⟩ :=
        exists_introduces_writeWhole formed keyWhole
          (entryKeyVariable value key) parcel flags
      obtain ⟨valueCode, valueWritten, valueIntroduces⟩ :=
        exists_introduces_writeWhole formed valueWhole
          (entryValueVariable value val) parcel flags
      refine ⟨_, ?_,
        introduces_writtenEntries (d := d) keyIntroduces valueIntroduces⟩
      simp [Layout.write, Layout.type, keyWritten, valueWritten, bind,
        Except.bind, pure, Except.pure]

theorem exists_introduces_writeArray (formed : r.WellFormed)
    (array : d.canBeArray) (value parcel : Variable) (flags : WriteFlags) :
    ∃ code, writeArray r d value parcel flags = .ok code ∧
      Introduces [value, parcel] [] [] (writtenNames value.name) code := by
  have simple {method : String} {others : List Expr}
      (known : Expr.listVars others = []) :
      Introduces [value, parcel] [] [] (writtenNames value.name)
        [.expr (parcel.call method (value.ref :: others))] :=
    (introduces_of_declared_eq_nil rfl
      (by simp [vars, Stmt.vars, Expr.listVars, known])).rename (by simp)
      (by simp)
  unfold writeArray
  cases d.strategy_of_canBeArray array with
  | primitive p strategy =>
      simp only [strategy]
      exact ⟨_, rfl, simple rfl⟩
  | string strategy =>
      simp only [strategy]
      exact ⟨_, rfl, simple rfl⟩
  | binder strategy =>
      simp only [strategy]
      exact ⟨_, rfl, simple rfl⟩
  | record strategy =>
      obtain ⟨e, flagged⟩ := exists_flagsExpr formed flags
      simp only [strategy, flagged, bind, Except.bind, pure, Except.pure]
      exact ⟨_, rfl, simple (by simp [Expr.listVars, vars_flagsExpr flagged])⟩
  | list arguments element strategy =>
      obtain ⟨body, written, introduces⟩ :=
        exists_introduces_writeWhole formed
          (Descriptor.isWhole_of_canBeArray array) (itemVariable value d)
          parcel flags
      have sized : Introduces _ [] [] _ [writeSized value parcel
          (.field value.ref "length") _] :=
        introduces_writtenElements (by simp [Expr.vars]) introduces
      refine ⟨_, ?_, sized⟩
      simp [strategy, written, bind, Except.bind, pure, Except.pure]

end BinderIdl.Parcel
