import BinderIdl.Proofs.Method.Reply
import BinderIdl.Proofs.Parcel.Agreement

namespace BinderIdl

open Java BinderIdl.Types Document Parcel Emitter

namespace Method

variable {m : Platform} {r : Registry} {s : Signature}

theorem code_eq_ok {body : Emitter Unit} {code : Block}
    {late : Option Java.Variable} (emitted : body none = ⟨code, late, .ok ()⟩) :
    body.code = .ok code := by
  simp [Emitter.code, emitted, Except.map]

theorem proxy_eq_ok (formed : r.WellFormed) {sending after : Block}
    {late : Option Java.Variable}
    (sent : ∀ loader, s.parameters.forM (sendParameter r (parcelNamed "_data"))
      loader = ⟨sending, loader, .ok ()⟩)
    (collected : s.collect r (parcelNamed "_reply") none =
      ⟨after, late, .ok ()⟩) :
    proxy r s = .ok ((.expr ((parcelNamed "_data").call "writeInterfaceToken"
        [.literal "DESCRIPTOR"]) :: sending) ++ .expr (transact s
            (parcelNamed "_data") (parcelNamed "_reply")) :: after) := by
  have body : proxyBody r s (parcelNamed "_data") (parcelNamed "_reply") none =
      ⟨[_] ++ (sending ++ ([_] ++ after)), late, .ok ()⟩ :=
    run_bind_eq (run_emit _ _)
      (run_bind_eq (sent none) (run_bind_eq (run_emit _ _) collected))
  simp only [proxy, parcelVariable_eq_ok formed]
  exact code_eq_ok body

theorem stub_eq_ok (formed : r.WellFormed) {receiving after : Block}
    {middle late : Option Java.Variable}
    (received :
      (s.parameters.zipIdx.forM fun (p, position) =>
        receiveArgument r (parcelNamed "data") p position) none =
          ⟨receiving, middle, .ok ()⟩)
    (answered : s.answer r (parcelNamed "reply") middle =
      ⟨after, late, .ok ()⟩) :
    stub r s = .ok ((.expr ((parcelNamed "data").call "enforceInterface"
        [.literal "DESCRIPTOR"]) :: receiving) ++
      callImplementation s s.arguments :: after) := by
  have body : stubBody r s (parcelNamed "data") (parcelNamed "reply") none =
      ⟨[_] ++ (receiving ++ ([_] ++ after)), late, .ok ()⟩ :=
    run_bind_eq (run_emit _ _)
      (run_bind_eq received (run_bind_eq (run_emit _ _) answered))
  simp only [stub, parcelVariable_eq_ok formed]
  exact code_eq_ok body

namespace Signature

/-- The local for the result, if there is one. -/
def resultScope (s : Signature) (z : Value) : Env :=
  match s.result with
  | none => []
  | some t => [(t.variableNamed resultName, some z)]

theorem get?_resultScope {t : ValueType} (result : s.result = some t)
    (z : Value) (env : Env) :
    Env.get? (s.resultScope z ++ env) (t.variableNamed resultName) =
      some z := by
  rw [resultScope, result]
  exact Env.get?_cons_self _ _ _

theorem get?_resultScope_of_ne {v : Java.Variable}
    (apart : ∀ t, s.result = some t → t.variableNamed resultName ≠ v)
    (z : Value) (env : Env) :
    Env.get? (s.resultScope z ++ env) v = env.get? v := by
  unfold resultScope
  cases result : s.result with
  | none => rfl
  | some t => exact Env.get?_cons_of_ne (apart t result) _ _

theorem result_ne_argument (t : ValueType) (p : Parameter) (position : Nat) :
    t.variableNamed resultName ≠ argumentVariable p position := by
  intro same
  have names := congrArg (fun v : Java.Variable => v.name.toList) same
  simp [argumentVariable, resultName] at names

/-- A parameter with the name and the type of the caller's local for the result:
what comes back in it is read into the result. -/
def Hides (s : Signature) (p : Parameter) : Prop :=
  ∃ t, s.result = some t ∧ p.callerVariable = t.variableNamed resultName

end Signature

/-- The data of a call: what the caller sends, and what the implementation makes
of it. -/
structure Exchange where
  sent : Parameter → Datum
  result : Datum
  returned : Parameter → Datum

namespace Exchange

/-- A caller that can call: its parameters are bound, and where data are read
into an object, the object is there. -/
structure Calls (x : Exchange) (m : Platform) (r : Registry) (s : Signature)
    (data reply : Nat) (c : State) : Prop where
  data : c.env.get? (parcelNamed "_data") = some (.parcel data)
  reply : c.env.get? (parcelNamed "_reply") = some (.parcel reply)
  given : ∀ p ∈ s.parameters, p.Given r m c.env c.heap (x.sent p)
  ready : ∀ p ∈ s.outParameters, ∀ v, c.env.get? p.callerVariable = some v →
    p.type.Ready c.heap v (x.returned p)

/-- What any implementation leaves behind that was called with the given
arguments: a result, and objects of the classes and arrays of the lengths that
they had. -/
structure Answers (x : Exchange) (m : Platform) (r : Registry) (s : Signature)
    (zs : List Value) (u v : State) : Prop where
  result : ∃ z, v.env = s.resultScope z ++ u.env ∧
    ∀ t, s.result = some t → t.Shows v.heap z x.result ∧ t.Fits m r x.result
  heap : u.heap.Changed (fun _ => True) v.heap
  returned : List.Forall₂
    (fun p z => p.direction.isOut → p.type.Shows v.heap z (x.returned p) ∧
      p.type.Fits m r (x.returned p)) s.parameters zs

end Exchange

theorem Parameter.Receipt.hasRoom {p : Parameter} {h : Heap} {z : Value}
    {y : Datum} (receipt : p.Receipt m h z y) (array : p.type.isArray) :
    h.HasRoom z y := by
  unfold Parameter.Receipt at receipt
  by_cases isIn : p.direction.isIn
  · rw [if_pos isIn, ValueType.Shows, if_pos array] at receipt
    exact receipt.hasRoom
  · rw [if_neg isIn, if_pos array] at receipt
    exact receipt

/-- What comes back in an array fits into the array that was sent. -/
theorem Exchange.Answers.hasRoom {x : Exchange} {zs : List Value} {u v : State}
    (answers : x.Answers m r s zs u v)
    (receipts : List.Forall₂
      (fun p z => p.Receipt m u.heap z (x.sent p)) s.parameters zs)
    {p : Parameter} (listed : p ∈ s.parameters) (out : p.direction.isOut)
    (array : p.type.isArray) {h : Heap} {w : Value}
    (room : h.HasRoom w (x.sent p)) : h.HasRoom w (x.returned p) := by
  have both : List.Forall₂
      (fun p z => p.Receipt m u.heap z (x.sent p) ∧
        (p.direction.isOut → p.type.Shows v.heap z (x.returned p) ∧
          p.type.Fits m r (x.returned p))) s.parameters zs :=
    receipts.mp (fun _ _ => And.intro) answers.returned
  obtain ⟨z, _, receipt, back⟩ := exists_mem_of_forall₂ both listed
  have shown := (back out).1
  rw [ValueType.Shows, if_pos array] at shown
  exact (answers.heap.hasRoom (receipt.hasRoom array)).of_arrayOf shown room

theorem ValueType.eq_of_variableNamed_eq (formed : r.WellFormed)
    {t u : ValueType} (sound : t.Sound r) (other : u.Sound r)
    (array : t.isArray) (alsoArray : u.isArray) {name target : String}
    (same : t.variableNamed name = u.variableNamed target) : t = u := by
  obtain ⟨h, known⟩ := sound.known
  obtain ⟨k, there⟩ := other.known
  have types := congrArg Variable.type same
  simp only [ValueType.variableNamed, Descriptor.variableFor, array, alsoArray,
    if_true, Descriptor.arrayVariable, String.append_left_inj] at types
  obtain ⟨_, descriptors⟩ := formed.eq_of_qualifiedName_eq known there types
  cases t
  cases u
  simp_all

variable {x : Exchange} {data reply : Nat} {zs : List Value} {c u v : State}

/-- Each object that comes back is read into where the caller has it, or into
the result that hides it. -/
theorem Exchange.Calls.takes (calls : x.Calls m r s data reply c)
    (formed : r.WellFormed) (sound : s.Sound r)
    (answers : x.Answers m r s zs u v)
    (receipts : List.Forall₂
      (fun p z => p.Receipt m u.heap z (x.sent p)) s.parameters zs)
    {held : Bool} {id : Nat} {rest : List Token} {t w : State}
    (env : t.env = c.env) (heap : t.heap = c.heap)
    (created : AllCreated held (fun t : ValueType => t.variableNamed resultName)
      s.result.toList id rest (fun t h z => t.Shows h z x.result) t w)
    (hidden : ∀ p ∈ s.outParameters, s.Hides p →
      ∃ z, w.env.get? p.callerVariable = some z ∧
        p.type.Receives w.heap z (x.returned p)) :
    ∀ p ∈ s.outParameters, ∃ z, w.env.get? p.callerVariable = some z ∧
      p.type.Takes w.heap z (x.returned p) := by
  intro p listed
  obtain ⟨member, out⟩ := List.mem_filter.mp listed
  have parameter := sound.parameters p member
  by_cases hides : s.Hides p
  · obtain ⟨z, bound, receives⟩ := hidden p listed hides
    obtain ⟨type, result, same⟩ := hides
    refine ⟨z, bound, receives, ?_⟩
    rintro array other a rfl
    obtain ⟨z', resultBound, shown⟩ :=
      created.shown type (Option.mem_toList.mpr result)
    rw [← same, bound] at resultBound
    cases resultBound
    obtain ⟨_, _, typed⟩ := answers.result
    refine ValueType.not_holdsLists ?_ shown (typed type result).2
    rw [Bool.eq_false_iff]
    intro lists
    have alsoArray : type.isArray := (Bool.and_eq_true_iff.mp lists).1
    rw [ValueType.eq_of_variableNamed_eq formed parameter.type
      (sound.result type result) array alsoArray same, lists] at other
    cases other
  · obtain ⟨z, bound, given⟩ := calls.given p member
    obtain ⟨more, grown⟩ := created.heap
    have extended : c.heap.Changed (fun a => ¬ c.heap.HoldsLists a) w.heap := by
      rw [grown, heap]
      exact Heap.changed_append _ _ more
    have room : p.type.isArray → c.heap.HasRoom z (x.returned p) := by
      intro array
      have shown := (given (.inr array)).1
      rw [ValueType.Shows, if_pos array] at shown
      exact answers.hasRoom receipts member out array shown.hasRoom
    have kept : w.env.get? p.callerVariable = t.env.get? p.callerVariable := by
      refine created.get?_eq fun type known v helper => ?_
      refine (parameter.outVariable formed out).ne_of_helper helper
        fun same => hides ?_
      exact ⟨type, Option.mem_toList.mp known, same⟩
    refine ⟨z, kept.trans (env ▸ bound), extended.receives_value
      (ValueType.receives_of_ready (calls.ready p listed z bound) room), ?_⟩
    rintro array other a rfl
    obtain ⟨shown, fits⟩ := given (.inr array)
    refine ValueType.not_holdsLists other ?_ fits
    rw [grown, heap]
    exact shown.append more

theorem Exchange.Calls.sendable (calls : x.Calls m r s data reply c) :
    ∀ p ∈ s.parameters, p.Sendable m r (x.sent p) := by
  intro p listed content
  obtain ⟨_, _, given⟩ := calls.given p listed
  exact (given content).2

theorem Exchange.Answers.fits (answers : x.Answers m r s zs u v) :
    ∀ p ∈ s.outParameters, p.type.Fits m r (x.returned p) := by
  intro p listed
  obtain ⟨member, out⟩ := List.mem_filter.mp listed
  obtain ⟨_, _, back⟩ := exists_mem_of_forall₂ answers.returned member
  exact (back out).2

/-- The arguments are still bound when the implementation has returned. -/
theorem Exchange.Answers.exists_argument (answers : x.Answers m r s zs u v)
    (made : List.Forall₂
      (fun e z => u.env.get? (argumentVariable e.1 e.2) = some z)
      s.parameters.zipIdx zs) :
    ∀ e ∈ s.parameters.zipIdx, e.1.direction.isOut →
      ∃ z, v.env.get? (argumentVariable e.1 e.2) = some z ∧
        e.1.type.Shows v.heap z (x.returned e.1) ∧
        e.1.type.Fits m r (x.returned e.1) := by
  have returned : List.Forall₂
      (fun e z =>
        e.1.direction.isOut → e.1.type.Shows v.heap z (x.returned e.1) ∧
          e.1.type.Fits m r (x.returned e.1)) s.parameters.zipIdx zs := by
    have back := answers.returned
    rw [← List.zipIdx_map_fst 0 s.parameters] at back
    exact List.forall₂_map_left_iff.mp back
  intro e listed out
  obtain ⟨z, _, bound, back⟩ := exists_mem_of_forall₂
    (made.mp (fun _ _ => And.intro) returned) listed
  obtain ⟨result, scope, _⟩ := answers.result
  refine ⟨z, ?_, back out⟩
  rw [scope, Signature.get?_resultScope_of_ne]
  · exact bound
  · exact fun t _ => Signature.result_ne_argument t e.1 e.2

/-- What the caller's side of a kept method sends is what the implementation's
side takes off the request before it calls the implementation with one argument
for each parameter, and what that side replies is what the caller's side takes
off the reply. -/
theorem sides_speak_one_protocol {r : Registry} (reachable : r.Reachable)
    {m : Platform} (makes : m.MakesContainers r) {doc : Document}
    {i : ResolvedInterface} (known : i.Known r) {method : ResolvedMethod}
    (kept : method ∈ (checkInterface doc r i).kept.methods) :
    ∃ s g, Signature.ofResolved r method = .ok s ∧
      generate r (checkInterface doc r i).kept method = .ok g ∧
      ∃ send collect refill receive answer : Block,
        g.proxy = send ++
          .expr (transact s (parcelNamed "_data") (parcelNamed "_reply")) ::
            (collect ++ refill) ∧
        g.stub = receive ++ callImplementation s s.arguments :: answer ∧
        (s.oneway → collect = [] ∧ refill = [] ∧ answer = []) ∧
        ∀ {x : Exchange} {data reply inData inReply : Nat} {c u : State}
            {rest : List Token},
          x.Calls m r s data reply c →
          u.env.get? (parcelNamed "data") = some (.parcel inData) →
          u.env.get? (parcelNamed "reply") = some (.parcel inReply) →
          u.parcels inData = s.request r x.sent ++ rest →
          Block.exec m send c = some (c.append data (s.request r x.sent)) ∧
          ∃ u' zs, Block.exec m receive u = some u' ∧
            u'.parcels = (u.setParcel inData rest).parcels ∧
            Expr.evalAll m (s.arguments.map Variable.ref) u' = some (zs, u') ∧
            List.Forall₂
              (fun p z => p.Receipt m u'.heap z (x.sent p)) s.parameters zs ∧
            ∀ {v : State}, x.Answers m r s zs u' v →
              Block.exec m answer v =
                some (v.append inReply (s.replyTokens r x.result x.returned)) ∧
              ∀ {t : State} {more : List Token},
                  t.env = c.env → t.heap = c.heap →
                t.parcels reply = s.replyTokens r x.result x.returned ++ more →
                ∃ w, Block.exec m collect t = some w ∧
                  (∀ type, s.result = some type → ∃ z,
                    w.env.get? (type.variableNamed resultName) = some z ∧
                    type.Shows w.heap z x.result) ∧
                  w.parcels =
                    (t.setParcel reply
                      (s.returnedTokens r x.returned ++ more)).parcels ∧
                  ((∀ p ∈ s.outParameters, s.Hides p →
                      ∃ z, w.env.get? p.callerVariable = some z ∧
                        p.type.Receives w.heap z (x.returned p)) →
                    ∃ w', Block.exec m refill w = some w' ∧ ReadsBack m r reply
                      x.returned s.outParameters refill w w' ∧
                      w'.parcels = (t.setParcel reply more).parcels) := by
  have formed := reachable.wellFormed
  obtain ⟨s, _, resolved, sound, generates⟩ :=
    exists_signature_of_kept formed known kept
  obtain ⟨sending, sent, sends⟩ := exists_forM_appends fun p listed =>
    (sound.parameters p listed).appends_sendParameter formed
      (type_parcelNamed "_data")
  obtain ⟨receiving, middle, received, receives⟩ :=
    sound.exists_receive formed makes (type_parcelNamed "data")
  obtain ⟨answer, answered, silent, answers⟩ :=
    sound.exists_answer formed (type_parcelNamed "reply")
  obtain ⟨collect, refill, late, collected, idle, collects⟩ :=
    sound.exists_collect formed makes (type_parcelNamed "_reply")
  refine ⟨s, _, resolved, generates (proxy_eq_ok formed sent collected)
    (stub_eq_ok formed received (answered _)), _, collect, refill, _, answer,
    rfl, rfl,
    fun oneway => ⟨(idle oneway).1, (idle oneway).2, silent oneway⟩, ?_⟩
  intro x data reply inData inReply c u rest calls bound replyBound front
  refine ⟨?_, ?_⟩
  · have after :=
      sends (m := m) (s := c.append data [⟨.interfaceName, .text "DESCRIPTOR"⟩])
        calls.data calls.given
    rw [Block.exec_cons_of_eq_some (exec_writeInterfaceToken calls.data), after,
      State.append_append]
    rfl
  · obtain ⟨u', ran, all⟩ := receives (u := u.setParcel inData _) bound
      calls.sendable (State.parcels_setParcel_self _ _ _)
    obtain ⟨zs, made⟩ := exists_forall₂ all.shown
    have boundTo := made.imp fun _ _ both => both.1
    have receipts : List.Forall₂
        (fun p z => p.Receipt m u'.heap z (x.sent p)) s.parameters zs := by
      rw [← List.zipIdx_map_fst 0 s.parameters]
      exact List.forall₂_map_left_iff.mpr (made.imp fun _ _ both => both.2)
    refine ⟨u', zs, ?_,
      all.parcels.trans (State.parcels_setParcel_of_eq u inData _ rfl),
      evalAll_refs (List.forall₂_map_left_iff.mpr boundTo), receipts, ?_⟩
    · rw [Block.exec_cons_of_eq_some (exec_enforceInterface bound front)]
      exact ran
    · intro v returns
      obtain ⟨z, scope, typed⟩ := returns.result
      have stillBound :
          v.env.get? (parcelNamed "reply") = some (.parcel inReply) := by
        rw [scope, Signature.get?_resultScope_of_ne, all.get?_eq]
        · exact replyBound
        · intro e listed w helper
          have parameter :=
            sound.parameters e.1 (List.fst_mem_of_mem_zipIdx listed)
          exact helper.ne_parcel rfl (parameter.type.plain formed _).parcel
        · intro type result
          exact ((sound.result type result).plain formed _).ne_parcel rfl
      refine ⟨answers stillBound (fun type result => ⟨z, ?_, typed type result⟩)
        (returns.exists_argument boundTo), ?_⟩
      · rw [scope]
        exact Signature.get?_resultScope result z u'.env
      · intro t more env heap replied
        obtain ⟨held, w, collecting, created, refills⟩ :=
          collects (env ▸ calls.reply)
            (fun type result => (typed type result).2) returns.fits replied
        refine ⟨w, collecting, fun type result => ?_, created.parcels,
          fun hidden => ?_⟩
        · exact created.shown type (Option.mem_toList.mpr result)
        · obtain ⟨w', reads, emptied⟩ :=
            refills (calls.takes formed sound returns receipts env heap
              created hidden)
          exact ⟨w', reads.exec, reads, emptied⟩

def finder : Document where
  package := "a.b"
  file := "Finder.aidl"
  items := [.interface ⟨"Finder", 1, false, [⟨"find", 2, false,
    ⟨"int", false, 2⟩, [⟨.inOut, ⟨"List<String>", false, 2⟩, "seen", 2⟩,
      ⟨.output, ⟨"int", true, 2⟩, "places", 2⟩]⟩]⟩]

def seen : Parameter where
  name := "seen"
  direction := .inOut
  type := ⟨.ofTemplate "java.util" "List" .writeAndOut
    (.genericList ⟨[.string], "<java.lang.String>",
      "java.util.ArrayList<java.lang.String>"⟩ .strings), false⟩

def places : Parameter where
  name := "places"
  direction := .output
  type := ⟨.ofPrimitive .int, true⟩

def find : Signature where
  name := "find"
  oneway := false
  result := some ⟨.ofPrimitive .int, false⟩
  parameters := [seen, places]

/-- The implementation finds the words of a list at two places. -/
def finding : Exchange where
  sent p :=
    if p = seen then .collection [.text "a"] else .collection [.int 0, .int 0]
  result := .int 3
  returned p :=
    if p = seen then .collection [.text "a"] else .collection [.int 1, .int 2]

def findingCaller : State where
  env := [(seen.callerVariable, some (.ref 0)),
    (places.callerVariable, some (.ref 1)),
    (parcelNamed "_data", some (.parcel 0)),
    (parcelNamed "_reply", some (.parcel 1))]
  heap := [.data (.collection [.text "a"]), .array [.int 0, .int 0]]
  parcels _ := []

theorem fits_find (r : Registry) (content : Parameter → Datum)
    (list : seen.type.descriptor.fits (content seen))
    (array : places.type.descriptor.arrayFits (content places)) :
    ∀ p ∈ find.parameters, p.type.Fits hashing r (content p) := by
  refine List.forall_mem_cons.mpr ⟨?_, List.forall_mem_singleton.mpr array⟩
  have layout : r.layout seen.type.descriptor = .whole seen.type.descriptor :=
    Registry.layout_of_isWhole r rfl
  change (r.layout seen.type.descriptor).Fits hashing (content seen)
  rw [layout]
  exact list

theorem calls_finding (r : Registry) :
    finding.Calls hashing r find 0 1 findingCaller := by
  have fits := fits_find r finding.sent rfl rfl
  refine ⟨rfl, rfl, ?_, ?_⟩
  · refine List.forall_mem_cons.mpr ⟨?_, List.forall_mem_singleton.mpr ?_⟩
    · exact ⟨.ref 0, rfl,
        fun _ => ⟨.object rfl rfl, fits seen List.mem_cons_self⟩⟩
    · refine ⟨.ref 1, rfl,
        fun _ => ⟨.array rfl ?_, fits places (by simp [find])⟩⟩
      exact .cons (.data _) (.cons (.data _) .nil)
  · refine List.forall_mem_cons.mpr ⟨?_, List.forall_mem_singleton.mpr ?_⟩
    · rintro v bound
      cases bound
      exact .inr ⟨0, _, rfl, rfl⟩
    · rintro v - lists
      cases lists

theorem exists_answers_finding (r : Registry) {u : State} {zs : List Value}
    (receipts : List.Forall₂
      (fun p z => p.Receipt hashing u.heap z (finding.sent p)) find.parameters
      zs) : ∃ v, finding.Answers hashing r find zs u v := by
  cases receipts with
  | @cons _ z _ _ first others =>
  cases others with
  | @cons _ z' _ _ second none =>
  cases none
  have list : u.heap.Item z (.collection [.text "a"]) := first
  have room : u.heap.HasRoom z' (.collection [.int 0, .int 0]) := second
  rcases room with ⟨_, null⟩ | ⟨a, items, _, rfl, known, same, lengths⟩
  · cases null
  cases same
  have fits := fits_find r finding.returned rfl rfl
  have updated := Heap.updated_set u.heap a (.array [.int 1, .int 2])
  refine ⟨⟨find.resultScope (.int 3) ++ u.env,
    u.heap.set a (.array [.int 1, .int 2]), u.parcels⟩, ⟨.int 3, rfl, ?_⟩, ?_,
    .cons (fun _ => ?_) (.cons (fun _ => ?_) .nil)⟩
  · intro t result
    cases result
    refine ⟨.data _, ?_⟩
    have layout : r.layout (.ofPrimitive .int) = .whole (.ofPrimitive .int) :=
      Registry.layout_of_isWhole r rfl
    change (r.layout (.ofPrimitive .int)).Fits hashing (.int 3)
    rw [layout]
    rfl
  · exact (updated.changed known (.array lengths)).mono fun _ _ => trivial
  · exact ⟨list.of_updated_array known updated, fits seen List.mem_cons_self⟩
  · refine ⟨.array (updated.self (List.getElem?_eq_some_iff.mp known).1) ?_,
      fits places (by simp [find])⟩
    exact .cons (.data _) (.cons (.data _) .nil)

theorem not_hides_find : ∀ p ∈ find.outParameters, ¬ find.Hides p := by
  rintro p listed ⟨t, _, hidden⟩
  have others : ∀ p ∈ find.parameters, p.name ≠ resultName := by decide
  have names := congrArg Variable.name hidden
  simp only [Parameter.callerVariable, ValueType.name_variableNamed] at names
  exact others p (List.mem_filter.mp listed).1 names

theorem sides_speak_one_protocol_finder :
    let r := (finder.resolve (finder.declare .standard).1).registry
    let i : ResolvedInterface := ⟨⟨24⟩, 1,
      [⟨"find", 2, false, ⟨.int, false⟩, [⟨"seen", .inOut, ⟨⟨25⟩, false⟩, 2⟩,
        ⟨"places", .output, ⟨.int, true⟩, 2⟩]⟩]⟩
    let request := [⟨.interfaceName, .text "DESCRIPTOR"⟩,
      ⟨.stringList, .collection [.text "a"]⟩, intToken 2]
    let replied := [⟨.noException, .null⟩, intToken 3,
      ⟨.stringList, .collection [.text "a"]⟩,
      ⟨.array .int, .collection [.int 1, .int 2]⟩]
    let u : State := ⟨[(parcelNamed "data", some (.parcel 0)),
      (parcelNamed "reply", some (.parcel 1))], [], fun _ => request⟩
    ∃ g send collect refill receive answer,
        (∃ m ∈ i.methods, generate r i m = .ok g) ∧
      g.proxy = send ++
        .expr (transact find (parcelNamed "_data") (parcelNamed "_reply")) ::
          (collect ++ refill) ∧
      g.stub = receive ++ callImplementation find find.arguments :: answer ∧
      Block.exec hashing send findingCaller =
        some (findingCaller.append 0 request) ∧
      ∃ u' v zs, Block.exec hashing receive u = some u' ∧ u'.parcels 0 = [] ∧
        finding.Answers hashing r find zs u' v ∧
        Block.exec hashing answer v = some (v.append 1 replied) ∧
        ∃ w w', Block.exec hashing collect
          { findingCaller with parcels := fun _ => replied } = some w ∧
          Block.exec hashing refill w = some w' ∧ w'.parcels 1 = [] := by
  intro r i request replied u
  have reachable : r.Reachable :=
    Registry.Reachable.grows (declareItems_grows finder .standard finder.items)
      (resolve_orderly finder _).grows
  have listed : i ∈ (finder.resolve (finder.declare .standard).1).result := by
    decide +kernel
  have makes : hashing.MakesContainers r := by
    intro h d arguments known generic
    have all : ∀ d ∈ r.types,
        d.strategy.arguments? = none ∨ d = seen.type.descriptor := by
      decide +kernel
    rcases all d (List.mem_of_getElem? known) with none | rfl
    · rw [generic] at none
      cases none
    · cases generic
  have kept : (checkInterface finder r i).kept = i := by decide +kernel
  have member : i.methods.head (List.cons_ne_nil _ _) ∈
      (checkInterface finder r i).kept.methods := by
    rw [kept]
    exact List.head_mem _
  have resolved :
      Signature.ofResolved r (i.methods.head (List.cons_ne_nil _ _)) =
        .ok find := by decide +kernel
  obtain ⟨s, g, same, made, send, collect, refill, receive, answer, proxied,
      stubbed, _, speaks⟩ :=
    sides_speak_one_protocol reachable makes
      (known_of_mem_resolve listed) member
  cases Except.ok.inj (same.symm.trans resolved)
  rw [kept] at made
  have asked : u.parcels 0 = find.request r finding.sent ++ [] := rfl
  obtain ⟨sends, u', zs, receives, emptied, _, receipts, answers⟩ :=
    speaks (calls_finding r) rfl rfl asked
  obtain ⟨v, returns⟩ := exists_answers_finding r receipts
  obtain ⟨answered, collects⟩ := answers returns
  let t : State := { findingCaller with parcels := fun _ => replied }
  have front : t.parcels 1 =
      find.replyTokens r finding.result finding.returned ++ [] := rfl
  obtain ⟨w, collected, _, _, refills⟩ := collects (t := t) rfl rfl front
  obtain ⟨w', refilled, _, left⟩ := refills fun p listed hidden =>
    absurd hidden (not_hides_find p listed)
  refine ⟨g, send, collect, refill, receive, answer, ⟨_, List.head_mem _, made⟩,
    proxied, stubbed, sends, u', v, zs, receives, ?_, returns, answered, w, w',
    collected, refilled, ?_⟩
  · rw [emptied]
    rfl
  · rw [left]
    rfl

end Method

end BinderIdl
