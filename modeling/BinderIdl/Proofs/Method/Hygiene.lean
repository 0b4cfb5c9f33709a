import BinderIdl.Proofs.Method.Scoping

namespace BinderIdl

open Document Java BinderIdl.Types Parcel Emitter Block

namespace Method

variable {r : Registry} {p : Parameter} {s : Signature}

/-- What stands behind the last underscore, from back to front. -/
def lastWord (name : String) :
    List Char := name.toList.reverse.takeWhile (· != '_')

theorem lastWord_append (owner word : String) :
    lastWord (owner ++ "_" ++ word) = lastWord word := by
  unfold lastWord
  rw [String.toList_append, List.reverse_append, List.takeWhile_append]
  split
  · next whole =>
      have same := (List.takeWhile_prefix (· != '_')).eq_of_length whole
      simp [same]
  · rfl

theorem lastWord_mem_of_mem_suffixed {owner name : String} {words : List String}
    (listed : name ∈ suffixed owner words) :
    lastWord name ∈ words.map lastWord := by
  obtain ⟨word, known, rfl⟩ := List.mem_map.mp listed
  exact lastWord_append owner word ▸ List.mem_map_of_mem known

/-- The words for what stands at any depth in code that fills a value. -/
def filledWords : List String := "size" :: "i" :: elementWords

theorem size_disjoint_filledNames {owner other : String}
    (apart : owner ≠ other) :
    (suffixed owner ["size"]).Disjoint (filledNames other) := by
  intro name one two
  obtain rfl := List.mem_singleton.mp one
  obtain ⟨word, known, same⟩ := List.mem_map.mp two
  have last : lastWord word = lastWord "size" := by
    rw [← lastWord_append other, same, lastWord_append]
  have words : ∀ word ∈ filledWords,
      lastWord word = lastWord "size" → word = "size" := by decide
  obtain rfl := words word known last
  exact apart
    ((String.append_left_inj _).mp ((String.append_left_inj _).mp same)).symm

theorem result_not_mem_filledNames (owner : String) :
    resultName ∉ filledNames owner :=
  fun listed => absurd (lastWord_mem_of_mem_suffixed listed) (by decide)

theorem resultBinder_not_mem_filledNames (owner : String) :
    resultName ++ "_" ++ "binder" ∉ filledNames owner := by
  intro listed
  obtain ⟨word, known, same⟩ := List.mem_map.mp listed
  have last : lastWord word = lastWord "binder" := by
    rw [← lastWord_append owner, same, lastWord_append]
  -- Three words end in `binder`; what is left of the name without it ends in
  -- their first parts.
  have words : ∀ word ∈ filledWords, lastWord word = lastWord "binder" →
      ∃ front ∈ ["item", "key", "value"], word = front ++ "_" ++ "binder" := by
        decide
  obtain ⟨front, listed, rfl⟩ := words word known last
  rw [← String.append_assoc, ← String.append_assoc, String.append_left_inj,
    String.append_left_inj] at same
  have fronts : ∀ front ∈ ["item", "key", "value"],
      lastWord front ≠ lastWord resultName := by decide
  exact fronts front listed (same ▸ (lastWord_append owner front).symm)

theorem createdTops_disjoint_filledNames {owner : String}
    (apart : owner ≠ resultName) :
    (createdTops resultName).Disjoint (filledNames owner) := by
  intro name top filled
  simp only [createdTops, suffixed, List.map_cons, List.map_nil, List.mem_cons,
    List.not_mem_nil, or_false] at top
  rcases top with rfl | rfl | rfl
  · exact result_not_mem_filledNames owner filled
  · exact size_disjoint_filledNames apart.symm List.mem_cons_self filled
  · exact resultBinder_not_mem_filledNames owner filled

namespace Signature

/-- What is in scope in front of the caller's side. -/
def callerScope (s : Signature) : List Java.Variable :=
  s.parameters.map Parameter.callerVariable ++ [parcelNamed "_data",
    parcelNamed "_reply"]

/-- The names of the locals of the caller's side, apart from the
class loader. -/
def callerNames (s : Signature) : List String :=
  s.parameters.flatMap (fun p => writtenNames p.name) ++
    (s.result.toList.flatMap (fun _ => createdNames resultName) ++
      s.outParameters.flatMap fun p => filledNames p.name)

theorem parcels_subset_callerScope (s : Signature) :
    [parcelNamed "_data", parcelNamed "_reply"] ⊆ s.callerScope :=
  List.subset_append_right _ _

theorem pair_subset_callerScope (listed : p ∈ s.parameters)
    {parcel : Java.Variable}
    (known : parcel ∈ [parcelNamed "_data", parcelNamed "_reply"]) :
    [p.callerVariable, parcel] ⊆ s.callerScope :=
  List.forall_mem_cons.mpr ⟨List.mem_append_left _ (List.mem_map_of_mem listed),
    List.forall_mem_singleton.mpr (s.parcels_subset_callerScope known)⟩

end Signature

theorem Parameter.name_callerVariable (p : Parameter) :
    p.callerVariable.name = p.name :=
  p.type.name_variableNamed _

theorem Parameter.Sound.brings_sendParameter (sound : p.Sound r)
    (formed : r.WellFormed) (data : Java.Variable) :
    Brings [p.callerVariable, data] [] [] (writtenNames p.name)
      (sendParameter r data p) := by
  unfold sendParameter
  dsimp only
  split
  · have sent := sound.type.brings_write formed p.callerVariable data .none
    rwa [p.name_callerVariable] at sent
  · split
    · refine (brings_silent rfl ?_).among (marked_suffixed _ _)
      simp [writeSized, Stmt.vars, vars, Expr.vars, Expr.int,
        Parameter.callerVariable]
    · exact brings_pure.among (marked_suffixed _ _)

theorem Parameter.Sound.brings_receiveParameter (sound : p.Sound r)
    (formed : r.WellFormed) (out : p.direction.isOut) (reply : Java.Variable) :
    Brings [p.callerVariable, reply] [] (suffixed p.name ["size"])
      (filledNames p.name) (receiveParameter r reply p) := by
  have read :=
    sound.type.brings_read formed (sound.comesBack out) p.callerVariable reply
  rwa [p.name_callerVariable] at read

theorem brings_receiveResult (sound : s.Sound r) (formed : r.WellFormed)
    (reply : Java.Variable) :
    Brings [reply] s.resultVariables
      (s.result.toList.flatMap fun _ => createdTops resultName)
      (s.result.toList.flatMap fun _ => createdNames resultName)
      (receiveResult r reply s.result) := by
  unfold receiveResult Signature.resultVariables
  cases result : s.result with
  | none => exact brings_pure
  | some t =>
      have marked : '_' ∈ (t.variableNamed resultName).name.toList := by
        rw [t.name_variableNamed]
        decide
      have made := (sound.result t result).brings_create formed marked reply
      rw [t.name_variableNamed] at made
      simpa using made

theorem brings_receiveParameters (sound : s.Sound r) (formed : r.WellFormed) :
    Brings s.callerScope []
      (s.outParameters.flatMap fun p => suffixed p.name ["size"])
      (s.outParameters.flatMap fun p => filledNames p.name)
      (s.outParameters.forM (receiveParameter r (parcelNamed "_reply"))) := by
  have distinct : s.outParameters.Pairwise fun p q => p.name ≠ q.name :=
    (List.pairwise_map.mp sound.distinct).sublist List.filter_sublist
  have each (p : Parameter) (listed : p ∈ s.outParameters) :
      Brings s.callerScope [] (suffixed p.name ["size"]) (filledNames p.name)
        (receiveParameter r (parcelNamed "_reply") p) := by
    obtain ⟨listed, out⟩ := List.mem_filter.mp listed
    exact
      ((sound.parameters p listed).brings_receiveParameter formed out _).mono
        (s.pair_subset_callerScope listed (by simp)) (List.Subset.refl _)
  have all :=
    brings_forM each (distinct.imp fun apart => size_disjoint_filledNames apart)
  rwa [List.flatMap_eq_nil_iff.mpr fun _ _ => rfl] at all

theorem brings_sendParameters (sound : s.Sound r) (formed : r.WellFormed) :
    Brings s.callerScope [] []
      (s.parameters.flatMap fun p => writtenNames p.name)
      (s.parameters.forM (sendParameter r (parcelNamed "_data"))) :=
  brings_forM_inner fun p listed =>
    ((sound.parameters p listed).brings_sendParameter formed _).mono
      (s.pair_subset_callerScope listed List.mem_cons_self) (List.Subset.refl _)

theorem brings_collect (sound : s.Sound r) (formed : r.WellFormed) :
    ∃ tops, Brings s.callerScope [] tops
      (s.result.toList.flatMap (fun _ => createdNames resultName) ++
        s.outParameters.flatMap fun p => filledNames p.name)
      (s.collect r (parcelNamed "_reply")) := by
  have reply : parcelNamed "_reply" ∈ s.callerScope :=
    s.parcels_subset_callerScope (by simp)
  have checked : Brings s.callerScope [] [] []
      (emit (.expr ((parcelNamed "_reply").call "readException" []))) :=
    brings_silent rfl
      (by simpa [Stmt.vars, Expr.vars, Expr.listVars] using reply)
  have result := (brings_receiveResult sound formed (parcelNamed "_reply")).mono
    (List.forall_mem_singleton.mpr reply) (List.Subset.refl _)
  have both := result.bind (brings_receiveParameters sound formed)
    (List.subset_append_right _ _) ?_
  · unfold Signature.collect
    split
    · exact ⟨[], brings_pure.among both.locals⟩
    · exact ⟨_,
        (both.behind checked).mono (List.Subset.refl _) (List.nil_subset _)⟩
  · intro clear name top filled
    obtain ⟨t, there, top⟩ := List.mem_flatMap.mp top
    obtain ⟨p, listed, filled⟩ := List.mem_flatMap.mp filled
    -- A parameter that is called like the result is in its way before it can be
    -- in another's.
    refine createdTops_disjoint_filledNames (fun same => ?_) top filled
    have taken : p.callerVariable ∈ s.callerScope :=
      s.pair_subset_callerScope (List.mem_filter.mp listed).1 List.mem_cons_self
        List.mem_cons_self
    refine clear _ (List.mem_map_of_mem there) _ taken ?_
    rw [t.name_variableNamed, p.name_callerVariable, same]

theorem exists_brings_proxyBody (sound : s.Sound r) (formed : r.WellFormed) :
    ∃ tops, Brings s.callerScope [] tops s.callerNames
      (proxyBody r s (parcelNamed "_data") (parcelNamed "_reply")) := by
  have parcels := s.parcels_subset_callerScope
  have announced :
      Brings s.callerScope [] [] [] (emit (.expr ((parcelNamed "_data").call
        "writeInterfaceToken" [.literal "DESCRIPTOR"]))) :=
    brings_silent rfl (by
      simpa [Stmt.vars, Expr.vars, Expr.listVars] using
        parcels List.mem_cons_self)
  have flags : (transactFlags s.oneway).vars = [] := by
    unfold transactFlags
    split <;> rfl
  have transacted : Brings s.callerScope [] [] [] (emit
      (.expr (transact s (parcelNamed "_data") (parcelNamed "_reply")))) :=
    brings_silent rfl (by simpa [Stmt.vars, transact, Expr.vars, Expr.listVars,
      flags] using parcels)
  obtain ⟨tops, collected⟩ := brings_collect sound formed
  have all :=
    (brings_sendParameters sound formed).bind (collected.behind transacted)
      (List.subset_append_right _ _) fun _ => List.disjoint_nil_left _
  exact ⟨_,
    (all.behind announced).mono (List.Subset.refl _) (List.nil_subset _)⟩

theorem lastWord_mem_of_mem_callerNames {name : String}
    (listed : name ∈ s.callerNames) :
    lastWord name ∈
      ("result" :: "entry" :: "binder" :: filledWords).map lastWord := by
  have within {words : List String} {owner : String}
      (listed : name ∈ suffixed owner words) (known : words ⊆
        "result" :: "entry" :: "binder" :: filledWords) :=
    List.map_subset lastWord known (lastWord_mem_of_mem_suffixed listed)
  rcases List.mem_append.mp listed with sent | taken
  · obtain ⟨p, _, written⟩ := List.mem_flatMap.mp sent
    exact within written (by decide)
  · rcases List.mem_append.mp taken with result | returned
    · obtain ⟨t, _, created⟩ := List.mem_flatMap.mp result
      rcases List.mem_cons.mp created with rfl | derived
      · decide
      · exact within derived (by decide)
    · obtain ⟨p, _, filled⟩ := List.mem_flatMap.mp returned
      exact within filled (by decide)

theorem not_parcel_of_mem_locals {name : String}
    (listed : name ∈ loaderName :: s.callerNames) :
    name ∉ ["_data", "_reply"] := by
  rcases List.mem_cons.mp listed with rfl | own
  · decide
  · have others : ∀ name ∈ ["_data", "_reply"], lastWord name ∉
        ("result" :: "entry" :: "binder" :: filledWords).map lastWord := by
          decide
    exact fun parcel => others name parcel (lastWord_mem_of_mem_callerNames own)

theorem exists_proxy_wellScoped_iff (formed : r.WellFormed)
    (sound : s.Sound r) :
    ∃ code, proxy r s = .ok code ∧
      (∀ v ∈ Block.declared code, v.name ∈ loaderName :: s.callerNames) ∧
      (code.WellScoped s.callerScope ↔ ∀ p ∈ s.parameters, p.name ∉
        ["_data", "_reply"] ∧ ∀ v ∈ Block.declared code, v.name ≠ p.name) := by
  obtain ⟨tops, brings⟩ := exists_brings_proxyBody sound formed
  obtain ⟨code, made, _, introduces⟩ := brings.exists_code
  have names : s.callerScope.map Variable.name =
      s.parameters.map Parameter.name ++ ["_data", "_reply"] := by
    simp [Signature.callerScope, Parameter.name_callerVariable, parcelNamed]
  refine ⟨code, ?_, introduces.names, fun well p listed => ?_, fun free => ?_⟩
  · simp only [proxy, parcelVariable_eq_ok formed]
    exact made
  · have distinct := names ▸ well.1
    have taken : p.callerVariable ∈ s.callerScope :=
      s.pair_subset_callerScope listed List.mem_cons_self List.mem_cons_self
    refine ⟨(List.disjoint_of_nodup_append distinct)
      (List.mem_map_of_mem listed), ?_⟩
    exact fun v local_ => p.name_callerVariable ▸ well.fresh v local_ _ taken
  · apply introduces.wellScoped
    · rw [names]
      refine List.Nodup.append sound.distinct (by decide) fun name one => ?_
      obtain ⟨p, listed, rfl⟩ := List.mem_map.mp one
      exact (free p listed).1
    · intro v declares w taken same
      rcases List.mem_append.mp taken with parameter | parcel
      · obtain ⟨p, listed, rfl⟩ := List.mem_map.mp parameter
        exact (free p listed).2 v declares (same.trans p.name_callerVariable)
      · refine not_parcel_of_mem_locals (introduces.names v declares)
          (same ▸ ?_)
        exact List.mem_map_of_mem parcel

/-- The caller's side of a kept method is generated, and it is well scoped
unless a parameter goes by the name of a parcel or of a local. Its locals are
called like the class loader, like a result that is created, or like a parameter
with a word behind it. -/
theorem proxy_is_well_scoped_iff {r : Registry} (reachable : r.Reachable)
    {doc : Document} {i : ResolvedInterface} (known : i.Known r)
    {m : ResolvedMethod} (kept : m ∈ (checkInterface doc r i).kept.methods) :
    ∃ s g, Signature.ofResolved r m = .ok s ∧
      generate r (checkInterface doc r i).kept m = .ok g ∧
      (g.proxy.WellScoped s.callerScope ↔ ∀ p ∈ s.parameters, p.name ∉
        ["_data", "_reply"] ∧ ∀ v ∈ Block.declared g.proxy, v.name ≠ p.name) ∧
      ∀ v ∈ Block.declared g.proxy, v.name = loaderName ∨
        (s.result.isSome ∧ v.name ∈ createdNames resultName) ∨
        ∃ p ∈ s.parameters, v.name ∈ writtenNames p.name ∨
          p.direction.isOut ∧ v.name ∈ filledNames p.name := by
  have formed := reachable.wellFormed
  obtain ⟨s, _, resolved, sound, generates⟩ :=
    exists_signature_of_kept formed known kept
  obtain ⟨caller, proxied, names, well⟩ :=
    exists_proxy_wellScoped_iff formed sound
  obtain ⟨callee, stubbed⟩ := exists_stub formed sound
  refine ⟨s, _, resolved, generates proxied stubbed, well, fun v declares => ?_⟩
  rcases List.mem_cons.mp (names v declares) with loader | own
  · exact .inl loader
  rcases List.mem_append.mp own with sent | taken
  · obtain ⟨p, listed, written⟩ := List.mem_flatMap.mp sent
    exact .inr (.inr ⟨p, listed, .inl written⟩)
  rcases List.mem_append.mp taken with result | returned
  · obtain ⟨t, there, created⟩ := List.mem_flatMap.mp result
    exact .inr (.inl ⟨Option.isSome_of_mem (Option.mem_toList.mp there),
      created⟩)
  · obtain ⟨p, listed, filled⟩ := List.mem_flatMap.mp returned
    obtain ⟨member, out⟩ := List.mem_filter.mp listed
    exact .inr (.inr ⟨p, member, .inr ⟨out, filled⟩⟩)

theorem proxy_is_well_scoped_iff_finder :
    let r := (finder.resolve (finder.declare .standard).1).registry
    let m : ResolvedMethod :=
      ⟨"find", 2, false, ⟨.int, false⟩, [⟨"seen", .inOut, ⟨⟨25⟩, false⟩, 2⟩,
        ⟨"places", .output, ⟨.int, true⟩, 2⟩]⟩
    ∃ i ∈ (finder.resolve (finder.declare .standard).1).result, m ∈ i.methods ∧
      ∃ g, generate r i m = .ok g ∧ g.proxy.WellScoped find.callerScope := by
  intro r m
  have reachable : r.Reachable :=
    Registry.Reachable.grows (declareItems_grows finder .standard finder.items)
      (resolve_orderly finder _).grows
  have listed : (⟨⟨24⟩, 1, [m]⟩ : ResolvedInterface) ∈
      (finder.resolve (finder.declare .standard).1).result := by decide +kernel
  have kept : (checkInterface finder r ⟨⟨24⟩, 1, [m]⟩).kept =
      ⟨⟨24⟩, 1, [m]⟩ := by decide +kernel
  have member : m ∈ (checkInterface finder r ⟨⟨24⟩, 1, [m]⟩).kept.methods := by
    rw [kept]
    exact List.mem_singleton_self m
  have resolved : Signature.ofResolved r m = .ok find := by decide +kernel
  obtain ⟨s, g, same, made, well, names⟩ :=
    proxy_is_well_scoped_iff reachable (known_of_mem_resolve listed) member
  cases Except.ok.inj (same.symm.trans resolved)
  have locals : ∀ v ∈ Block.declared g.proxy,
      v.name = loaderName ∨ '_' ∈ v.name.toList := by
    intro v declares
    rcases names v declares with
      loader | ⟨_, created⟩ | ⟨p, _, written | ⟨_, filled⟩⟩
    · exact .inl loader
    · exact .inr (Marked.cons (by decide) (marked_suffixed _ _) _ created)
    · exact .inr (underscore_mem_of_mem_suffixed written)
    · exact .inr (underscore_mem_of_mem_suffixed filled)
  have plain : ∀ p ∈ find.parameters, p.name ∉ ["_data", "_reply"] ∧
      p.name ≠ loaderName ∧ '_' ∉ p.name.toList := by decide
  refine ⟨_, listed, List.mem_singleton_self m, g, kept ▸ made,
    well.mpr fun p there => ?_⟩
  obtain ⟨parcel, loader, unmarked⟩ := plain p there
  refine ⟨parcel, fun v declares same => ?_⟩
  exact (locals v declares).elim (fun other => loader (same ▸ other)) fun own =>
    unmarked (same ▸ own)

/-- A method with a parameter that is called like the local for its result. -/
def counter : Document where
  package := "a.b"
  file := "Counter.aidl"
  items := [.interface ⟨"Counter", 1, false, [⟨"count", 2, false,
    ⟨"int", false, 2⟩, [⟨.input, ⟨"int", false, 2⟩, "_result", 2⟩]⟩]⟩]

theorem proxy_is_not_well_scoped_counter :
    let r := (counter.resolve (counter.declare .standard).1).registry
    let m : ResolvedMethod := ⟨"count", 2, false, ⟨.int, false⟩,
      [⟨"_result", .input, ⟨.int, false⟩, 2⟩]⟩
    ∃ i ∈ (counter.resolve (counter.declare .standard).1).result,
      m ∈ (checkInterface counter r i).kept.methods ∧
      ∃ s g, Signature.ofResolved r m = .ok s ∧
        generate r (checkInterface counter r i).kept m = .ok g ∧
        ¬ g.proxy.WellScoped s.callerScope := by
  intro r m
  have listed : (⟨⟨24⟩, 1, [m]⟩ : ResolvedInterface) ∈
      (counter.resolve (counter.declare .standard).1).result := by
        decide +kernel
  have kept : (checkInterface counter r ⟨⟨24⟩, 1, [m]⟩).kept =
      ⟨⟨24⟩, 1, [m]⟩ := by decide +kernel
  let s : Signature := ⟨"count", false, some ⟨.ofPrimitive .int, false⟩,
    [⟨"_result", .input, .ofPrimitive .int, false⟩]⟩
  have resolved : Signature.ofResolved r m = .ok s := by decide +kernel
  have fails :
      (generate r ⟨⟨24⟩, 1, [m]⟩ m).toOption.map
        (fun g => decide (g.proxy.WellScoped s.callerScope)) = some false := by
    decide +kernel
  cases made : generate r ⟨⟨24⟩, 1, [m]⟩ m with
  | error error => simp [made, Except.toOption] at fails
  | ok g =>
      refine ⟨_, listed, ?_, s, g, resolved, kept.symm ▸ made, ?_⟩
      · rw [kept]
        exact List.mem_singleton_self m
      · simpa [made, Except.toOption] using fails

end Method

end BinderIdl
