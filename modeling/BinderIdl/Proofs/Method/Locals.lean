import BinderIdl.Proofs.Method.ClassLoader
import BinderIdl.Proofs.Method.Protocol
import BinderIdl.Proofs.Parcel.Locals

/-! The locals of a whole body. Its emitters share the class loader, which the
first of them declares that needs it; every other name that they declare has an
underscore in it. -/

namespace BinderIdl

open Document Java BinderIdl.Types Parcel Emitter Block

namespace Parcel

variable {needed : Bool} {needs keeps : List Variable}
  {tops locals : List String}

/-- What goes with the class loader, if it is at hand late but
was not before. -/
def newly {α : Type} (held late : Bool) (a : α) :
    List α := if late && !held then [a] else []

/-- Names that cannot be the name of the class loader, nor of a parcel of the
implementation. -/
def Marked (names : List String) : Prop := ∀ name ∈ names, '_' ∈ name.toList

/-- Whether the class loader is at hand or not, the emitter gives code that
introduces variables, among them the class loader if that is at hand
afterwards only. -/
structure Brings (needs keeps : List Variable) (tops locals : List String)
    (e : Emitter Unit) : Prop where
  runs : ∀ held,
    ∃ code late, e (slot held) = ⟨code, slot late, .ok ()⟩ ∧
      (held → late) ∧ Introduces ((slot held).toList ++ needs)
        (newly held late loaderVariable ++ keeps) (newly held late loaderName ++
            tops) (newly held late loaderName ++ locals) code
  tops : Marked tops
  locals : Marked locals

theorem Marked.loaderName_not_mem {names : List String}
    (marked : Marked names) :
    loaderName ∉ names :=
  fun listed => absurd (marked _ listed) (by decide)

theorem marked_nil : Marked [] := List.forall_mem_nil _

theorem marked_suffixed (owner : String) (words : List String) :
    Marked (suffixed owner words) :=
  fun _ => underscore_mem_of_mem_suffixed

theorem Marked.cons {name : String} {names : List String}
    (marked : '_' ∈ name.toList) (others : Marked names) :
    Marked (name :: names) :=
  List.forall_mem_cons.mpr ⟨marked, others⟩

theorem Marked.append {first second : List String} (marked : Marked first)
    (others : Marked second) : Marked (first ++ second) :=
  List.forall_mem_append.mpr ⟨marked, others⟩

section Newly

variable {α : Type} {held middle late : Bool} {a b : α}

theorem newly_self (held : Bool) (a : α) : newly held held a = [] := by
  cases held <;> rfl

theorem eq_of_mem_newly (listed : b ∈ newly held late a) : b = a := by
  unfold newly at listed
  split at listed
  · exact List.mem_singleton.mp listed
  · cases listed

theorem mem_newly_iff (grows : held → middle) (later : middle → late) :
    b ∈ newly held late a ↔
      b ∈ newly held middle a ∨ b ∈ newly middle late a := by
  cases held <;> cases middle <;> cases late <;> simp_all [newly]

theorem not_mem_newly_of_mem_newly (listed : a ∈ newly held middle a) :
    a ∉ newly middle late a := by
  cases held <;> cases middle <;> simp_all [newly]

theorem slot_subset_newly (grows : held → late) :
    (slot late).toList ⊆
      newly held late loaderVariable ++ (slot held).toList := by
  cases held <;> cases late <;> simp_all [newly, slot]

end Newly

theorem Brings.mono {e : Emitter Unit} {needs' keeps' : List Variable}
    (brings : Brings needs keeps tops locals e) (more : needs ⊆ needs')
    (fewer : keeps' ⊆ keeps) :
    Brings needs' keeps' tops locals e where
  runs held := by
    obtain ⟨code, late, run, grows, introduces⟩ := brings.runs held
    exact ⟨code, late, run, grows,
      introduces.mono (append_subset_append (List.Subset.refl _) more)
        (append_subset_append (List.Subset.refl _) fewer) (List.Subset.refl _)
        (List.Subset.refl _)⟩
  tops := brings.tops
  locals := brings.locals

theorem Brings.rename {e : Emitter Unit} {tops' locals' : List String}
    (brings : Brings needs keeps tops locals e) (top : tops ⊆ tops')
    (all : locals ⊆ locals') (marked : Marked tops')
    (markedLocals : Marked locals') :
    Brings needs keeps tops' locals' e where
  runs held := by
    obtain ⟨code, late, run, grows, introduces⟩ := brings.runs held
    exact ⟨code, late, run, grows, introduces.rename
      (append_subset_append (List.Subset.refl _) top)
      (append_subset_append (List.Subset.refl _) all)⟩
  tops := marked
  locals := markedLocals

/-- What introduces no name stays within any marked ones. -/
theorem Brings.among {e : Emitter Unit} (brings : Brings needs keeps [] [] e)
    (marked : Marked locals) : Brings needs keeps [] locals e :=
  brings.rename (List.nil_subset _) (List.nil_subset _) marked_nil marked

theorem Brings.exists_code {e : Emitter Unit}
    (brings : Brings needs keeps tops locals e) :
    ∃ code, e.code = .ok code ∧
      ∃ tops', Introduces needs keeps tops' (loaderName :: locals) code := by
  obtain ⟨code, late, run, _, introduces⟩ := brings.runs false
  refine ⟨code, Method.code_eq_ok run, _, introduces.mono (List.Subset.refl _)
    (List.subset_append_right _ _) (List.Subset.refl _) ?_⟩
  intro name listed
  rcases List.mem_append.mp listed with loader | own
  · exact List.mem_cons.mpr (.inl (eq_of_mem_newly loader))
  · exact List.mem_cons_of_mem _ own

theorem brings_silent {stmt : Stmt} (silent : stmt.declared = [])
    (known : stmt.vars ⊆ needs) :
    Brings needs [] [] [] (emit stmt) where
  runs held := by
    refine ⟨[stmt], held, rfl, id, ?_⟩
    rw [newly_self, newly_self]
    apply introduces_of_declared_eq_nil (by simp [Block.declared, silent])
    simpa [vars] using List.subset_append_of_subset_right _ known
  tops := marked_nil
  locals := marked_nil

theorem brings_pure : Brings needs [] [] [] (pure ()) where
  runs held := ⟨[], held, rfl, id, by
    rw [newly_self, newly_self]
    exact introduces_of_declared_eq_nil rfl (List.nil_subset _)⟩
  tops := marked_nil
  locals := marked_nil

theorem Brings.bind {first second : Emitter Unit}
    {needs' keeps' : List Variable} {tops' locals' : List String}
    (before : Brings needs keeps tops locals first)
    (after : Brings needs' keeps' tops' locals' second)
    (enough : needs' ⊆ keeps ++ needs)
    (apart : (∀ v ∈ keeps, ∀ w ∈ needs, v.name ≠ w.name) →
      tops.Disjoint locals') :
    Brings needs (keeps' ++ keeps) (tops ++ tops') (locals ++ locals')
      (first >>= fun _ => second) where
  runs held := by
    obtain ⟨code, middle, run, grows, introduces⟩ := before.runs held
    obtain ⟨rest, late, runRest, growsRest, introducesRest⟩ := after.runs middle
    refine ⟨code ++ rest, late, Method.run_bind_eq run runRest,
      fun there => growsRest (grows there), ?_⟩
    have both := introduces.append introducesRest ?_ ?_
    · have names (own own' : List String) : newly held middle loaderName ++
          own ++ (newly middle late loaderName ++ own') ⊆
          newly held late loaderName ++ (own ++ own') := by
        intro name listed
        simp only [List.mem_append, mem_newly_iff grows growsRest] at listed ⊢
        tauto
      refine both.mono (List.Subset.refl _) ?_ (names _ _) (names _ _)
      intro v listed
      simp only [List.mem_append, mem_newly_iff grows growsRest] at listed ⊢
      tauto
    · intro v listed
      have there := append_subset_append (slot_subset_newly grows) enough listed
      simp only [List.mem_append] at there ⊢
      tauto
    · -- The class loader is new in one of the parts only, and no marked name is
      -- its name.
      intro clear name one other
      rcases List.mem_append.mp one with one | one <;>
        rcases List.mem_append.mp other with other | other
      · obtain rfl := eq_of_mem_newly one
        exact not_mem_newly_of_mem_newly one other
      · exact after.locals.loaderName_not_mem (eq_of_mem_newly one ▸ other)
      · exact before.tops.loaderName_not_mem (eq_of_mem_newly other ▸ one)
      · refine apart (fun v kept w need => clear v ?_ w ?_) one other
        · exact List.mem_append_right _ kept
        · exact List.mem_append_right _ need
  tops := before.tops.append after.tops
  locals := before.locals.append after.locals

theorem brings_forM {ι : Type} {f : ι → Emitter Unit} {own : ι → List Variable}
    {top all : ι → List String} {xs : List ι}
    (each : ∀ x ∈ xs, Brings needs (own x) (top x) (all x) (f x))
    (apart : xs.Pairwise fun x y => (top x).Disjoint (all y)) :
    Brings needs (xs.flatMap own) (xs.flatMap top) (xs.flatMap all)
      (xs.forM f) := by
  induction xs with
  | nil => exact brings_pure
  | cons x rest induction =>
      obtain ⟨here, later⟩ := List.forall_mem_cons.mp each
      obtain ⟨first, others⟩ := List.pairwise_cons.mp apart
      have both := here.bind (induction later others)
        (List.subset_append_right _ _) fun _ => ?_
      · refine both.mono (List.Subset.refl _) ?_
        simp [List.flatMap_cons]
      · intro name one other
        obtain ⟨y, listed, member⟩ := List.mem_flatMap.mp other
        exact first y listed one member

theorem Brings.behind {first second : Emitter Unit}
    (after : Brings needs keeps tops locals second)
    (before : Brings needs [] [] [] first) :
    Brings needs keeps tops locals (first >>= fun _ => second) := by
  have both := before.bind after (List.subset_append_right _ _) fun _ =>
    List.disjoint_nil_left _
  rwa [List.append_nil] at both

theorem brings_forM_inner {ι : Type} {f : ι → Emitter Unit}
    {all : ι → List String} {xs : List ι}
    (each : ∀ x ∈ xs, Brings needs [] [] (all x) (f x)) :
    Brings needs [] [] (xs.flatMap all) (xs.forM f) := by
  have apart : xs.Pairwise fun _ y => List.Disjoint [] (all y) :=
    List.pairwise_of_forall fun _ y => List.disjoint_nil_left (all y)
  have both := brings_forM each apart
  rwa [List.flatMap_eq_nil_iff.mpr fun _ _ => rfl,
    List.flatMap_eq_nil_iff.mpr fun _ _ => rfl] at both

theorem introduces_acquireCode (held needed : Bool) :
    Introduces needs (newly held (held || needed) loaderVariable)
      (newly held (held || needed) loaderName)
      (newly held (held || needed) loaderName) (acquireCode held needed) := by
  cases held <;> cases needed <;> first
    | exact introduces_of_declared_eq_nil rfl (List.nil_subset _)
    | exact introduces_declare (by simp [loaderValue, Expr.vars, Expr.listVars])

theorem Opens.brings {e : Emitter Unit}
    (opens : Opens needed needs keeps tops locals e) (top : Marked tops)
    (all : Marked locals) : Brings needs keeps tops locals e where
  runs held := by
    obtain ⟨code, run, introduces⟩ := opens
    refine ⟨acquireCode held needed ++ code, held || needed, run held,
      by simp +contextual, ?_⟩
    have acquires : Introduces ((slot held).toList ++ needs) _ _ _
        (acquireCode held needed) :=
      introduces_acquireCode held needed
    have both := acquires.append introduces ?_ fun _ => ?_
    · refine both.mono (List.Subset.refl _) ?_ (List.Subset.refl _)
        (List.Subset.refl _)
      intro v listed
      simp only [List.mem_append] at listed ⊢
      tauto
    · have loader : (slot needed).toList ⊆ (slot (held || needed)).toList :=
        slot_subset_slot (by simp +contextual)
      have there : (slot needed).toList ⊆
          newly held (held || needed) loaderVariable ++ (slot held).toList :=
        List.Subset.trans loader (slot_subset_newly (by simp +contextual))
      rw [← List.append_assoc]
      exact append_subset_append there (List.Subset.refl _)
    · intro name one other
      exact all.loaderName_not_mem (eq_of_mem_newly one ▸ other)
  tops := top
  locals := all

end Parcel

namespace Method

variable {r : Registry} {t : ValueType} {p : Parameter} {s : Signature}

theorem ValueType.Sound.brings_create (sound : t.Sound r)
    (formed : r.WellFormed) {value : Java.Variable}
    (marked : '_' ∈ value.name.toList) (parcel : Java.Variable) :
    Brings [parcel] [value] (createdTops value.name) (createdNames value.name)
      (t.create r value parcel) := by
  have tops : Marked (createdTops value.name) :=
    .cons marked (marked_suffixed _ _)
  have names : Marked (createdNames value.name) :=
    .cons marked (marked_suffixed _ _)
  unfold ValueType.create
  split
  · next array =>
      exact (opens_createArray formed (sound.array array) value parcel).brings
        tops names
  · exact (opens_create formed sound.carried value parcel).brings tops names

theorem ValueType.Sound.brings_read (sound : t.Sound r) (formed : r.WellFormed)
    (fit : canReadInto t.descriptor t.isArray) (value parcel : Java.Variable) :
    Brings [value, parcel] [] (suffixed value.name ["size"])
      (filledNames value.name) (t.read r value parcel) := by
  obtain ⟨h, known⟩ := sound.known
  unfold ValueType.read
  unfold canReadInto at fit
  split
  · exact (opens_readArray formed known (by simp_all) value parcel).brings
      (marked_suffixed _ _) (marked_suffixed _ _)
  · exact (opens_read formed known sound.carried (by simp_all) value
        parcel).brings (marked_suffixed _ _) (marked_suffixed _ _)

theorem ValueType.Sound.brings_write (sound : t.Sound r) (formed : r.WellFormed)
    (value parcel : Java.Variable) (flags : WriteFlags) :
    Brings [value, parcel] [] [] (writtenNames value.name)
      (t.write r value parcel flags) := by
  unfold ValueType.write
  split
  · next array =>
      obtain ⟨code, done, introduces⟩ :=
        exists_introduces_writeArray formed (sound.array array) value
          parcel flags
      exact (opens_ofCode done introduces).brings marked_nil
        (marked_suffixed _ _)
  · obtain ⟨code, done, introduces⟩ :=
      exists_introduces_write formed sound.carried value parcel flags
    exact (opens_ofCode done introduces).brings marked_nil (marked_suffixed _ _)

end Method

end BinderIdl
