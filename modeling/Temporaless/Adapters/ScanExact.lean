import Temporaless.Adapters.ScanQuery

/-!
# When scan queries are exact

A query over a bucket that only writes have touched returns exactly the stored records of its
scope, unless an object of another layout below the walked directory has a path that looks like
one of theirs.
-/

namespace Temporaless

open PathTree Effects OpenDALStore

variable {path : Path} {key : ObjectKey} {ns workflowID : String}

namespace ScanQuery

section Loop

variable {Bytes α : Type} {codec : Codec Bytes α} {selects : String → Bool}
variable {check : Path → α → Except Err Unit} {keeps : α → Bool} {b : Bucket Bytes}

def picked (codec : Codec Bytes α) (selects : String → Bool) (b : Bucket Bytes) (path : Path) :
    Option α :=
  if selects (render path) then
    (b.objects.lookup path).bind fun data => (codec.unmarshal data).toOption
  else none

theorem exec_readProto {record : α} (h : b.objects.lookup path = some (codec.marshal record)) :
    b.exec (readProto codec path) = (.ok record, b) := by
  rw [readProto, exec_bind_ok b _ (exec_readObject b h)]
  simp [codec.unmarshal_marshal]

theorem exec_scan {paths : List Path} (h : ∀ path ∈ paths, selects (render path) = true →
      ∃ record, b.objects.lookup path = some (codec.marshal record) ∧ check path record = .ok ()) :
    b.exec (scan codec selects check keeps paths) =
      (.ok ((paths.filterMap (picked codec selects b)).filter keeps), b) := by
  induction paths with
  | nil => rfl
  | cons path paths ih =>
    have hrest := ih fun p hp => h p (List.mem_cons_of_mem path hp)
    by_cases hselect : selects (render path) = true
    · obtain ⟨record, hlookup, hcheck⟩ := h path List.mem_cons_self hselect
      have hpicked : picked codec selects b path = some record := by
        simp [picked, hselect, hlookup, codec.unmarshal_marshal, Except.toOption]
      simp only [scan, hselect, Bool.not_true, Bool.false_eq_true, if_false]
      rw [exec_bind_ok b _ (exec_readProto hlookup), hcheck, exec_bind_ok b _ (exec_liftExcept b _),
        exec_bind_ok b _ hrest, exec_pure, List.filterMap_cons_some hpicked, List.filter_cons]
    · have hpicked : picked codec selects b path = none := by simp [picked, hselect]
      simp only [scan, hselect, Bool.not_false, if_true]
      rw [hrest, List.filterMap_cons_none hpicked]

@[grind ←] theorem readOnly_readProto (path : Path) : ReadOnly (readProto codec path) := by
  unfold readProto
  grind

theorem unmarshal_of_readProto {data : Bytes} {record : α} {b' : Bucket Bytes}
    (hlookup : b.objects.lookup path = some data)
    (hread : b.exec (readProto codec path) = (.ok record, b')) :
    codec.unmarshal data = .ok record := by
  rw [readProto, exec_bind_ok b _ (exec_readObject b hlookup)] at hread
  rcases hdecode : codec.unmarshal data with text | r
  · rw [hdecode] at hread
    cases hread
  · rw [hdecode] at hread
    cases hread
    rfl

theorem exec_scan_error {paths : List Path} {data : Bytes} (hmem : path ∈ paths)
    (hselect : selects (render path) = true) (hlookup : b.objects.lookup path = some data)
    (hcheck : ∀ record, codec.unmarshal data = .ok record → ∃ err, check path record = .error err) :
    ∃ err, b.exec (scan codec selects check keeps paths) = (.error err, b) := by
  induction paths with
  | nil => cases hmem
  | cons first paths ih =>
    by_cases hfirst : selects (render first) = true
    · have hstate : (b.exec (readProto codec first)).2 = b := (readOnly_readProto first).exec_state
      simp only [scan, hfirst, Bool.not_true, Bool.false_eq_true, if_false]
      rcases hread : b.exec (readProto codec first) with ⟨err | record, b'⟩
      · rw [hread] at hstate
        subst hstate
        exact ⟨err, exec_bind_error _ _ hread⟩
      · rw [hread] at hstate
        subst hstate
        rw [exec_bind_ok _ _ hread]
        rcases hpass : check first record with err | u
        · exact ⟨err, exec_bind_error _ _ (exec_liftExcept _ _)⟩
        · rw [exec_bind_ok _ _ (exec_liftExcept _ _)]
          rcases List.mem_cons.1 hmem with heq | hrest
          · subst heq
            obtain ⟨err, herr⟩ := hcheck record (unmarshal_of_readProto hlookup hread)
            rw [herr] at hpass
            cases hpass
          · obtain ⟨err, herr⟩ := ih hrest
            exact ⟨err, exec_bind_error _ _ herr⟩
    · simp only [scan, hfirst, Bool.not_false, if_true]
      apply ih
      rcases List.mem_cons.1 hmem with heq | hrest
      · exact absurd (heq ▸ hselect) hfirst
      · exact hrest

end Loop

/-- A path of another layout that ends like the path of a workflow record. -/
def LooksLikeWorkflow : ObjectKey → Prop
  | .workflow _ => False
  | .item _ key => key.id = "workflow"
  | .latest _ workflowID => workflowID = "workflow"
  | .due key => key.id = "workflow"

/-- A path of another layout with a directory named like that of activity records. -/
def LooksLikeActivity : ObjectKey → Prop
  | .workflow key => key.withDefaults.ns = "activity" ∨ key.workflowID = "activity" ∨
      key.runID = "activity"
  | .item kind key => kind ≠ .activity ∧ (key.withDefaults.ns = "activity" ∨
      key.workflowID = "activity" ∨ key.runID = "activity")
  | .latest ns workflowID =>
      (WorkflowKey.withDefaults ⟨ns, workflowID, "placeholder"⟩).ns = "activity"
  | .due key => key.withDefaults.ns = "activity" ∨ key.workflowID = "activity" ∨
      key.runID = "activity"

def IsWorkflow : ObjectKey → Prop
  | .workflow _ => True
  | _ => False

def IsActivity : ObjectKey → Prop
  | .item .activity _ => True
  | _ => False

theorem hasSuffix_iff {text suffix : String} :
    hasSuffix text suffix = true ↔ suffix.toList <:+ text.toList := List.isSuffixOf_iff_suffix

theorem containsText_iff {text part : String} :
    containsText text part = true ↔ part.toList <:+: text.toList := decide_eq_true_iff

private theorem binpb_eq_workflow {s : String} : binpb s = "workflow.binpb" ↔ s = "workflow" := by
  rw [show "workflow.binpb" = binpb "workflow" by decide]
  exact ⟨ItemKey.binpb_injective, congrArg binpb⟩

theorem selectsWorkflow_iff (h : key.Valid) :
    selectsWorkflow (render (key.address h).path) = true ↔
      IsWorkflow key ∨ LooksLikeWorkflow key := by
  have hiff := suffix_render_iff (ObjectKey.legible h) slashFree_fixed.2.2.2.2
  rw [selectsWorkflow, hasSuffix_iff, show "/workflow.binpb" = "/" ++ "workflow.binpb" by decide,
    hiff]
  cases key with
  | workflow key => simp [IsWorkflow]
  | item kind key => simp [IsWorkflow, LooksLikeWorkflow, binpb_eq_workflow]
  | latest ns workflowID => simp [IsWorkflow, LooksLikeWorkflow, binpb_eq_workflow]
  | due key => simp [IsWorkflow, LooksLikeWorkflow, binpb_eq_workflow]

theorem exists_binpb (h : key.Valid) :
    ∃ dir name, dir ≠ [] ∧ (key.address h).path = dir ++ [binpb name] := by
  cases key with
  | workflow key =>
    refine ⟨runDir key.withDefaults.ns key.workflowID key.runID, "workflow", ?_, ?_⟩
    · simp [runDir]
    · simp [runDir, storageRoot, show binpb "workflow" = "workflow.binpb" by decide]
  | item kind key =>
    refine ⟨key.withDefaults.directory, key.id, ?_, ?_⟩
    · simp [ItemKey.directory]
    · simp [ItemKey.directory, runDir, storageRoot]
  | latest ns workflowID =>
    refine ⟨storageRoot ++
      [(WorkflowKey.withDefaults ⟨ns, workflowID, "placeholder"⟩).ns, "_latest"], workflowID, ?_, ?_⟩
    · simp
    · simp [storageRoot]
  | due key =>
    refine ⟨dueRoot key.withDefaults.ns ++ [key.workflowID, key.runID], key.id, ?_, ?_⟩
    · simp
    · simp [dueRoot, storageRoot]

theorem suffix_binpb (h : key.Valid) :
    ".binpb".toList <:+ (render (key.address h).path).toList := by
  obtain ⟨dir, name, hdir, hpath⟩ := exists_binpb h
  rw [hpath, toList_render_append hdir (by simp)]
  refine ⟨(render dir).toList ++ '/' :: name.toList, ?_⟩
  simp [render, binpb]

theorem selectsActivity_iff (h : key.Valid) :
    selectsActivity (render (key.address h).path) = true ↔
      IsActivity key ∨ LooksLikeActivity key := by
  have hname : slashFree "activity" = true := by decide
  have hiff := infix_render_iff (ObjectKey.legible h) hname
  have htext : "/" ++ "activity" ++ "/" = "/activity/" := by decide
  rw [htext] at hiff
  rw [selectsActivity, Bool.and_eq_true, containsText_iff, hasSuffix_iff,
    and_iff_left (suffix_binpb h), hiff]
  cases key with
  | workflow key => simp [IsActivity, LooksLikeActivity, eq_comm]
  | item kind key =>
    cases kind <;> simp [IsActivity, LooksLikeActivity, RecordKind.name, eq_comm]
  | latest ns workflowID => simp [IsActivity, LooksLikeActivity, eq_comm]
  | due key => simp [IsActivity, LooksLikeActivity, eq_comm]

section Query

variable {wire : Wire} {claims : Codec wire.Bytes ClaimRecord} {b : Bucket wire.Bytes}

/-- The bucket holds an object of the key below a directory. -/
def Below (b : Bucket wire.Bytes) (root : Path) (key : ObjectKey) : Prop :=
  ∃ h : key.Valid, (b.objects.lookup (key.address h).path).isSome ∧ root <+: (key.address h).path

theorem length_path (h : key.Valid) : 5 ≤ (key.address h).path.length := by
  cases key <;> simp

theorem hasBinpbSuffix_path (h : key.Valid) : hasBinpbSuffix (key.address h).path = true := by
  obtain ⟨dir, name, -, hpath⟩ := exists_binpb h
  rw [hpath]
  exact hasBinpbSuffix_binpb dir name

theorem mem_recordsBelow {root p : Path} : p ∈ b.recordsBelow root ↔
    (b.objects.lookup p).isSome ∧ p ≠ [] ∧ hasBinpbSuffix p = true ∧ root <+: p.dropLast := by
  simp only [Bucket.recordsBelow, Bucket.records, List.mem_filter, decide_eq_true_eq,
    Bool.decide_and, Bool.and_eq_true, AList.lookup_isSome, AList.mem_keys, and_assoc]

theorem mem_recordsBelow_path {root : Path} (hroot : root.length ≤ 4)
    (h : key.Valid) : (key.address h).path ∈ b.recordsBelow root ↔
      (b.objects.lookup (key.address h).path).isSome ∧ root <+: (key.address h).path := by
  have hlength := length_path h
  have hne : (key.address h).path ≠ [] := by
    intro hnil
    rw [hnil] at hlength
    simp at hlength
  rw [mem_recordsBelow]
  constructor
  · intro hmem
    exact ⟨hmem.1, hmem.2.2.2.trans (List.dropLast_prefix _)⟩
  · intro hmem
    obtain ⟨rest, hrest⟩ := hmem.2
    have hpos : rest ≠ [] := by
      intro hnil
      have := congrArg List.length hrest
      simp [hnil] at this
      omega
    refine ⟨hmem.1, hne, hasBinpbSuffix_path h, ?_⟩
    rw [← hrest, List.dropLast_append_of_ne_nil hpos]
    exact List.prefix_append _ _

variable {α : Type} {codec : Codec wire.Bytes α} {selects : String → Bool}
variable {check : Path → α → Except Err Unit} {keeps : α → Bool} {Mine Looks : ObjectKey → Prop}

variable (wire claims codec selects check Mine Looks) in
/-- A query picks its own objects and those that look like them, and only its own pass. -/
structure Picks : Prop where
  selects : ∀ {key : ObjectKey} (h : key.Valid),
    selects (render (key.address h).path) = true ↔ Mine key ∨ Looks key
  mine : ∀ {key : ObjectKey} (h : key.Valid) {data : wire.Bytes}, Mine key →
    Payloads wire claims key data →
      ∃ record, data = codec.marshal record ∧ check (key.address h).path record = .ok ()
  looks : ∀ {key : ObjectKey} (h : key.Valid) {data : wire.Bytes} {record : α}, Looks key →
    Payloads wire claims key data → codec.unmarshal data = .ok record →
      ∃ err, check (key.address h).path record = .error err
  apart : ∀ {key key' : ObjectKey} (h : key.Valid) (h' : key'.Valid),
    key.address h = key'.address h' → Looks key → ¬ Mine key'
  home : ∀ {path path' : Path} {record : α}, check path record = .ok () →
    check path' record = .ok () → path = path'

theorem Picks.exec_error (h : Picks wire claims codec selects check Mine Looks)
    (hb : Filed wire claims b.objects) {root : Path} (hroot : root.length ≤ 4) {paths : List Path}
    (hpaths : paths.Perm (b.recordsBelow root)) (hbelow : Below b root key) (hlooks : Looks key) :
    ∃ err, b.exec (scan codec selects check keeps paths) = (.error err, b) := by
  obtain ⟨hvalid, hsome, hunder⟩ := hbelow
  obtain ⟨data, hlookup⟩ := Option.isSome_iff_exists.1 hsome
  have hmem := hpaths.mem_iff.2 ((mem_recordsBelow_path hroot hvalid).2 ⟨hsome, hunder⟩)
  have hselect := (h.selects hvalid).2 (.inr hlooks)
  -- The object may have been written under the other spelling of its namespace.
  obtain ⟨key', hvalid', hpath, hdata⟩ := hb _ _ hlookup
  have hapart := h.apart hvalid hvalid' (Address.path_injective hpath) hlooks
  rw [hpath] at hlookup hmem hselect
  have hlooks' := ((h.selects hvalid').1 hselect).resolve_left hapart
  apply exec_scan_error hmem hselect hlookup
  intro record hrecord
  exact h.looks hvalid' hlooks' hdata hrecord

section Clean

variable (h : Picks wire claims codec selects check Mine Looks) (hb : Filed wire claims b.objects)
variable {root : Path} (hroot : root.length ≤ 4) {paths : List Path}
variable (hpaths : paths.Perm (b.recordsBelow root))
variable (hnone : ∀ key, Below b root key → ¬ Looks key)

include h hb hroot hpaths hnone

theorem Picks.passes (hpath : path ∈ paths) (hselect : selects (render path) = true) :
    ∃ (key : ObjectKey) (hkey : key.Valid) (record : α), Mine key ∧
      path = (key.address hkey).path ∧ root <+: path ∧
      b.objects.lookup path = some (codec.marshal record) ∧ check path record = .ok () := by
  have hbelow := hpaths.mem_iff.1 hpath
  obtain ⟨data, hlookup⟩ := Option.isSome_iff_exists.1 (mem_recordsBelow.1 hbelow).1
  obtain ⟨key, hkey, rfl, hdata⟩ := hb _ _ hlookup
  have hunder := (mem_recordsBelow_path hroot hkey).1 hbelow
  have hmine := ((h.selects hkey).1 hselect).resolve_right (hnone key ⟨hkey, hunder⟩)
  obtain ⟨record, rfl, hcheck⟩ := h.mine hkey hmine hdata
  exact ⟨key, hkey, record, hmine, rfl, hunder.2, hlookup, hcheck⟩

theorem Picks.picked_iff (hpath : path ∈ paths) {record : α} :
    picked codec selects b path = some record ↔ selects (render path) = true ∧
      b.objects.lookup path = some (codec.marshal record) ∧ check path record = .ok () := by
  constructor
  · intro hpicked
    by_cases hselect : selects (render path) = true
    · obtain ⟨key, hkey, r, -, -, -, hlookup, hcheck⟩ := h.passes hb hroot hpaths hnone hpath hselect
      simp only [picked, hselect, if_true, hlookup, Option.bind_some, codec.unmarshal_marshal,
        Except.toOption] at hpicked
      cases hpicked
      exact ⟨hselect, hlookup, hcheck⟩
    · simp [picked, hselect] at hpicked
  · intro hfound
    simp [picked, hfound.1, hfound.2.1, codec.unmarshal_marshal, Except.toOption]

theorem Picks.nodup : (paths.filterMap (picked codec selects b)).Nodup := by
  have hnodup : paths.Nodup :=
    hpaths.nodup_iff.2 ((b.objects.keys_nodup.filter _).filter _)
  apply List.pairwise_filterMap.2
  apply hnodup.imp_of_mem
  intro path path' hpath hpath' hne record hrecord record' hrecord' heq
  subst heq
  have hcheck := ((h.picked_iff hb hroot hpaths hnone hpath).1 hrecord).2.2
  have hcheck' := ((h.picked_iff hb hroot hpaths hnone hpath').1 hrecord').2.2
  exact hne (h.home hcheck hcheck')

theorem Picks.exec_ok : ∃ records,
    b.exec (scan codec selects check keeps paths) = (.ok records, b) ∧ records.Nodup ∧
      ∀ record, record ∈ records ↔ keeps record = true ∧ ∃ (key : ObjectKey) (hkey : key.Valid),
        Mine key ∧ root <+: (key.address hkey).path ∧
          b.objects.lookup (key.address hkey).path = some (codec.marshal record) := by
  refine ⟨_, exec_scan ?_, (h.nodup hb hroot hpaths hnone).filter _, ?_⟩
  · intro path hpath hselect
    obtain ⟨key, hkey, record, -, -, -, hfound⟩ := h.passes hb hroot hpaths hnone hpath hselect
    exact ⟨record, hfound⟩
  · intro record
    rw [List.mem_filter, and_comm, List.mem_filterMap]
    apply and_congr_right
    intro _
    constructor
    · intro hmem
      obtain ⟨path, hpath, hpicked⟩ := hmem
      obtain ⟨hselect, hlookup, hcheck⟩ := (h.picked_iff hb hroot hpaths hnone hpath).1 hpicked
      obtain ⟨key, hkey, r, hmine, rfl, hunder, -, -⟩ :=
        h.passes hb hroot hpaths hnone hpath hselect
      exact ⟨key, hkey, hmine, hunder, hlookup⟩
    · intro hstored
      obtain ⟨key, hkey, hmine, hunder, hlookup⟩ := hstored
      have hmem := hpaths.mem_iff.2
        ((mem_recordsBelow_path hroot hkey).2 ⟨by rw [hlookup]; rfl, hunder⟩)
      have hselect := (h.selects hkey).2 (.inl hmine)
      obtain ⟨-, -, r, -, -, -, hr, hcheck⟩ := h.passes hb hroot hpaths hnone hmem hselect
      have hsame : r = record := by
        rw [hlookup] at hr
        have hdecode := congrArg codec.unmarshal (Option.some.inj hr)
        rw [codec.unmarshal_marshal, codec.unmarshal_marshal] at hdecode
        exact (Except.ok.inj hdecode).symm
      rw [hsame] at hcheck
      exact ⟨_, hmem, (h.picked_iff hb hroot hpaths hnone hmem).2 ⟨hselect, hlookup, hcheck⟩⟩

end Clean

end Query

section Exact

variable {wire : Wire} {claims : Codec wire.Bytes ClaimRecord} {b : Bucket wire.Bytes}

variable (wire claims) in
/-- The schema version tells a payload apart from those of other layouts. It is the first field of
every record, and the first field of the two other messages is not an enumeration. -/
structure Tells : Prop where
  workflow : ∀ {key : ObjectKey} {data : wire.Bytes} {record : WorkflowRecord}, ¬ IsWorkflow key →
    Payloads wire claims key data → wire.workflow.unmarshal data = .ok record →
      record.schemaVersion ≠ .workflow
  activity : ∀ {key : ObjectKey} {data : wire.Bytes} {record : ActivityRecord}, ¬ IsActivity key →
    Payloads wire claims key data → wire.activity.unmarshal data = .ok record →
      record.schemaVersion ≠ .activity

theorem validatePayloadLocation_eq_ok {kind : String} {actual : Path} {expectedPath : Except Err Path}
    {validation : Except Err Unit} :
    validatePayloadLocation kind actual expectedPath validation = .ok () ↔
      validation = .ok () ∧ expectedPath = .ok actual := by
  rcases validation with err | u
  · simp [validatePayloadLocation, Except.mapError, bind, Except.bind]
  · rcases expectedPath with err | expected
    · simp [validatePayloadLocation, Except.mapError, bind, Except.bind]
    · by_cases h : expected = actual
      · simp [validatePayloadLocation, Except.mapError, bind, Except.bind, h, pure, Except.pure]
      · simp [validatePayloadLocation, Except.mapError, bind, Except.bind, h, throw, throwThe,
          MonadExceptOf.throw]

theorem checkWorkflow_eq_ok {record : WorkflowRecord} :
    checkWorkflow path record = .ok () ↔
      validateWorkflowRecord record (workflowKeyFromProto record.key) = .ok () ∧
        (workflowKeyFromProto record.key).path = .ok path := by
  rw [checkWorkflow, bind_eq_ok_unit, validatePayloadLocation_eq_ok]
  apply and_congr_right
  intro _
  apply and_iff_right_of_imp
  intro hpath
  exact (WorkflowKey.valid_of_path hpath).1

theorem checkActivity_eq_ok {record : ActivityRecord} :
    checkActivity path record = .ok () ↔
      validateActivityRecord record (itemKeyFromProto record.key) = .ok () ∧
        (itemKeyFromProto record.key).path = .ok path := by
  rw [checkActivity, bind_eq_ok_unit, validatePayloadLocation_eq_ok]
  apply and_congr_right
  intro _
  apply and_iff_right_of_imp
  intro hpath
  exact (ItemKey.valid_of_path hpath).1

private theorem exists_error {check : Except Err Unit} (h : check ≠ .ok ()) :
    ∃ err, check = .error err := by
  rcases check with err | u
  · exact ⟨err, rfl⟩
  · exact absurd rfl h

theorem picksWorkflows (hwire : Tells wire claims) :
    Picks wire claims wire.workflow selectsWorkflow checkWorkflow IsWorkflow LooksLikeWorkflow where
  selects := selectsWorkflow_iff
  mine := by
    intro key h data hmine hdata
    cases key with
    | workflow key =>
      obtain ⟨record, rfl, hvalid⟩ := hdata
      obtain ⟨hversion, hkey, hsame, horder⟩ := validateWorkflowRecord_eq_ok.1 hvalid
      refine ⟨record, rfl, checkWorkflow_eq_ok.2 ⟨?_, ?_⟩⟩
      · exact validateWorkflowRecord_eq_ok.2 ⟨hversion, hkey, rfl, horder⟩
      · rw [WorkflowKey.path_of_valid hkey, hsame]
        rfl
    | _ => exact hmine.elim
  looks := by
    intro key h data record hlooks hdata hrecord
    have hother : ¬ IsWorkflow key := by
      cases key <;> simp_all [IsWorkflow, LooksLikeWorkflow]
    apply exists_error
    intro hcheck
    have hvalid := validateWorkflowRecord_eq_ok.1 (checkWorkflow_eq_ok.1 hcheck).1
    exact hwire.workflow hother hdata hrecord hvalid.1
  apart := by
    intro key key' h h' haddress hlooks
    cases key <;> cases key' <;> simp_all [ObjectKey.address, IsWorkflow, LooksLikeWorkflow]
  home := by
    intro path path' record hcheck hcheck'
    have hpath := (checkWorkflow_eq_ok.1 hcheck).2
    have hpath' := (checkWorkflow_eq_ok.1 hcheck').2
    exact Except.ok.inj (hpath.symm.trans hpath')

theorem picksActivities (hwire : Tells wire claims) :
    Picks wire claims wire.activity selectsActivity checkActivity IsActivity LooksLikeActivity where
  selects := selectsActivity_iff
  mine := by
    intro key h data hmine hdata
    cases key with
    | item kind key =>
      cases kind with
      | activity =>
        obtain ⟨record, rfl, hvalid⟩ := hdata
        obtain ⟨hversion, hkey, hsame⟩ := validateItem_eq_ok.1 hvalid
        refine ⟨record, rfl, checkActivity_eq_ok.2 ⟨?_, ?_⟩⟩
        · exact validateItem_eq_ok.2 ⟨hversion, hkey, rfl⟩
        · rw [ItemKey.path_of_valid hkey, hsame]
          rfl
      | timer | event | claim => exact hmine.elim
    | _ => exact hmine.elim
  looks := by
    intro key h data record hlooks hdata hrecord
    have hother : ¬ IsActivity key := by
      cases key with
      | item kind key => cases kind <;> simp_all [IsActivity, LooksLikeActivity]
      | _ => simp [IsActivity]
    apply exists_error
    intro hcheck
    have hvalid := validateItem_eq_ok.1 (checkActivity_eq_ok.1 hcheck).1
    exact hwire.activity hother hdata hrecord hvalid.1
  apart := by
    intro key key' h h' haddress hlooks hmine
    cases key' with
    | item kind' key' =>
      cases kind' with
      | activity =>
        cases key <;> simp_all [ObjectKey.address, LooksLikeActivity]
      | timer | event | claim => exact hmine.elim
    | _ => exact hmine.elim
  home := by
    intro path path' record hcheck hcheck'
    have hpath := (checkActivity_eq_ok.1 hcheck).2
    have hpath' := (checkActivity_eq_ok.1 hcheck').2
    exact Except.ok.inj (hpath.symm.trans hpath')

/-- The scope of a query: an empty field matches every key. -/
def Matches (ns workflowID keyNamespace keyWorkflowID : String) : Prop :=
  (ns = "" ∨ keyNamespace = ns) ∧ (workflowID = "" ∨ keyWorkflowID = workflowID)

theorem namespaceOrDefault_eq (key : WorkflowKey) :
    namespaceOrDefault key.ns = key.withDefaults.ns := by
  unfold namespaceOrDefault WorkflowKey.withDefaults
  split <;> rfl

theorem inScope_iff (ns workflowID : String) (key : WorkflowKey) :
    inScope ns workflowID key.ns key.workflowID = true ↔
      Matches ns workflowID key.withDefaults.ns key.withDefaults.workflowID := by
  simp [inScope, Matches, namespaceOrDefault_eq]

theorem length_scanRoot (ns workflowID : String) : (scanRoot ns workflowID).length ≤ 4 := by
  unfold scanRoot
  split
  · simp [storageRoot]
  · split <;> simp [storageRoot]

theorem scanRoot_prefix {keyNamespace keyWorkflowID : String} (rest : Path)
    (h : Matches ns workflowID keyNamespace keyWorkflowID) :
    scanRoot ns workflowID <+:
      "temporaless" :: "v2" :: keyNamespace :: keyWorkflowID :: rest := by
  obtain ⟨hns, hwf⟩ := h
  unfold scanRoot storageRoot
  split
  · simp
  · next hne =>
      obtain rfl := hns.resolve_left hne
      split
      · simp
      · next hne' =>
          obtain rfl := hwf.resolve_left hne'
          simp

variable (b) in
/-- The stored workflow records that a request asks for. -/
def StoredWorkflow (ns workflowID : String) (status : WorkflowStatus) (record : WorkflowRecord) :
    Prop :=
  ∃ key : RunKey, workflowRecord wire b.objects key = some record ∧
    Matches ns workflowID key.val.ns key.val.workflowID ∧
    (status = .unspecified ∨ record.status = status)

variable (b) in
/-- The stored activity records that a request asks for. -/
def StoredActivity (ns workflowID : String) (status : ActivityStatus) (record : ActivityRecord) :
    Prop :=
  ∃ key : RecordKey .activity, storedRecord wire.activity b.objects key.val.location = some record ∧
    Matches ns workflowID key.val.ns key.val.workflowID ∧
    (status = .unspecified ∨ record.status = status)

private theorem marshal_of_storedRecord {α : Type} {codec : Codec wire.Bytes α}
    {record r : α} (h : storedRecord codec b.objects path = some record)
    (hlookup : b.objects.lookup path = some (codec.marshal r)) : record = r := by
  rw [storedRecord_some hlookup] at h
  exact (Option.some.inj h).symm

private theorem isSome_of_storedRecord {α : Type} {codec : Codec wire.Bytes α}
    {record : α} (h : storedRecord codec b.objects path = some record) :
    ∃ data, b.objects.lookup path = some data := by
  rcases hlookup : b.objects.lookup path with _ | data
  · rw [storedRecord_none hlookup] at h
    cases h
  · exact ⟨data, rfl⟩

section

variable (hb : Filed wire claims b.objects)

include hb

theorem workflowRecord_key {key : RunKey} {record : WorkflowRecord}
    (h : workflowRecord wire b.objects key = some record) :
    b.objects.lookup key.val.location = some (wire.workflow.marshal record) ∧
      (workflowKeyFromProto record.key).withDefaults = key.val := by
  obtain ⟨data, hlookup⟩ := isSome_of_storedRecord h
  obtain ⟨key', hkey', hpath, hdata⟩ := hb _ _ hlookup
  have haddress : Address.workflow key = key'.address hkey' := Address.path_injective hpath
  cases key' with
  | workflow k =>
    obtain ⟨r, rfl, hvalid⟩ := hdata
    obtain rfl := marshal_of_storedRecord h hlookup
    refine ⟨hlookup, ?_⟩
    rw [(validateWorkflowRecord_eq_ok.1 hvalid).2.2.1]
    exact (congrArg Subtype.val (Address.workflow.inj haddress)).symm
  | _ => cases haddress

theorem activityRecord_key {key : RecordKey .activity}
    {record : ActivityRecord}
    (h : storedRecord wire.activity b.objects key.val.location = some record) :
    b.objects.lookup key.val.location = some (wire.activity.marshal record) ∧
      (itemKeyFromProto record.key).withDefaults = key.val := by
  obtain ⟨data, hlookup⟩ := isSome_of_storedRecord h
  obtain ⟨key', hkey', hpath, hdata⟩ := hb _ _ hlookup
  have haddress : Address.item .activity key = key'.address hkey' := Address.path_injective hpath
  cases key' with
  | item kind k =>
    obtain ⟨rfl, hkey⟩ := Address.item.inj haddress
    obtain ⟨r, rfl, hvalid⟩ := hdata
    obtain rfl := marshal_of_storedRecord h hlookup
    refine ⟨hlookup, ?_⟩
    rw [(validateItem_eq_ok.1 hvalid).2.2]
    exact (congrArg Subtype.val (eq_of_heq hkey)).symm
  | _ => cases haddress

theorem mem_workflows_iff
    {status : WorkflowStatus} {record : WorkflowRecord} :
    (keepsWorkflow ns workflowID status record = true ∧ ∃ (key : ObjectKey) (hkey : key.Valid),
      IsWorkflow key ∧ scanRoot ns workflowID <+: (key.address hkey).path ∧
        b.objects.lookup (key.address hkey).path = some (wire.workflow.marshal record)) ↔
      StoredWorkflow b ns workflowID status record := by
  have hkeeps : keepsWorkflow ns workflowID status record = true ↔
      Matches ns workflowID (workflowKeyFromProto record.key).withDefaults.ns
        (workflowKeyFromProto record.key).withDefaults.workflowID ∧
      (status = .unspecified ∨ record.status = status) := by
    simp only [keepsWorkflow, Bool.and_eq_true, inScope_iff, Bool.or_eq_true, beq_iff_eq]
  rw [hkeeps]
  constructor
  · intro h
    obtain ⟨hmatch, key, hkey, hmine, -, hlookup⟩ := h
    cases key with
    | workflow k =>
      have hstored : workflowRecord wire b.objects (k.stored hkey) = some record :=
        storedRecord_some hlookup
      rw [(workflowRecord_key hb hstored).2] at hmatch
      exact ⟨k.stored hkey, hstored, hmatch⟩
    | _ => exact hmine.elim
  · intro h
    obtain ⟨key, hstored, hmatch⟩ := h
    obtain ⟨hlookup, hown⟩ := workflowRecord_key hb hstored
    have hkey : (ObjectKey.workflow key.val).Valid := key.property.1
    rw [hown]
    refine ⟨hmatch, .workflow key.val, hkey, trivial, ?_, ?_⟩
    · rw [ObjectKey.segments_workflow hkey, key.withDefaults]
      exact scanRoot_prefix _ hmatch.1
    · rw [ObjectKey.address_workflow]
      exact hlookup

theorem mem_activities_iff
    {status : ActivityStatus} {record : ActivityRecord} :
    (keepsActivity ns workflowID status record = true ∧ ∃ (key : ObjectKey) (hkey : key.Valid),
      IsActivity key ∧ scanRoot ns workflowID <+: (key.address hkey).path ∧
        b.objects.lookup (key.address hkey).path = some (wire.activity.marshal record)) ↔
      StoredActivity b ns workflowID status record := by
  have hkeeps : keepsActivity ns workflowID status record = true ↔
      Matches ns workflowID (itemKeyFromProto record.key).withDefaults.ns
        (itemKeyFromProto record.key).withDefaults.workflowID ∧
      (status = .unspecified ∨ record.status = status) := by
    have hscope := inScope_iff ns workflowID (itemKeyFromProto record.key).run
    rw [← ItemKey.run_withDefaults] at hscope
    simp only [keepsActivity, Bool.and_eq_true, Bool.or_eq_true, beq_iff_eq]
    exact and_congr_left' hscope
  rw [hkeeps]
  constructor
  · intro h
    obtain ⟨hmatch, key, hkey, hmine, -, hlookup⟩ := h
    cases key with
    | item kind k =>
      cases kind with
      | activity =>
        have hstored : storedRecord wire.activity b.objects (k.stored hkey).val.location =
            some record := storedRecord_some hlookup
        rw [(activityRecord_key hb hstored).2] at hmatch
        exact ⟨k.stored hkey, hstored, hmatch⟩
      | timer | event | claim => exact hmine.elim
    | _ => exact hmine.elim
  · intro h
    obtain ⟨key, hstored, hmatch⟩ := h
    obtain ⟨hlookup, hown⟩ := activityRecord_key hb hstored
    have hkey : (ObjectKey.item .activity key.val).Valid := key.property.1
    rw [hown]
    refine ⟨hmatch, .item .activity key.val, hkey, trivial, ?_, ?_⟩
    · rw [ObjectKey.segments_item hkey, RecordKey.withDefaults key]
      exact scanRoot_prefix _ hmatch.1
    · rw [ObjectKey.address_item]
      exact hlookup

end

theorem exec_listWorkflows {fuel : Nat} (status : WorkflowStatus)
    (hscope : validateQueryScope ns workflowID = .ok ()) {paths : List Path}
    (hwalk : b.exec (walk fuel (scanRoot ns workflowID)) = (.ok paths, b)) :
    b.exec (listWorkflows wire fuel (some ⟨ns, workflowID, status, "", 0, ""⟩)) =
      b.exec (scan wire.workflow selectsWorkflow checkWorkflow
        (keepsWorkflow ns workflowID status) paths) := by
  have hpages : rejectPagination "" 0 "" = .ok () := rfl
  simp only [listWorkflows, hpages, hscope]
  rw [exec_bind_ok b _ (exec_liftExcept b _), exec_bind_ok b _ (exec_liftExcept b _),
    exec_bind_ok b _ hwalk]

theorem exec_listActivitiesQuery {fuel : Nat} (status : ActivityStatus)
    (hscope : validateQueryScope ns workflowID = .ok ()) {paths : List Path}
    (hwalk : b.exec (walk fuel (scanRoot ns workflowID)) = (.ok paths, b)) :
    b.exec (listActivitiesQuery wire fuel (some ⟨ns, workflowID, "", status, "", 0, ""⟩)) =
      b.exec (scan wire.activity selectsActivity checkActivity
        (keepsActivity ns workflowID status) paths) := by
  have hpages : rejectPagination "" 0 "" = .ok () := rfl
  simp only [listActivitiesQuery, hpages, hscope, ne_eq, not_true_eq_false, false_and, if_false]
  rw [exec_bind_ok b _ (exec_liftExcept b _), exec_bind_ok b _ (exec_liftExcept b _),
    exec_bind_ok b _ hwalk]

/-- On a bucket that only writes have touched, each query returns exactly the stored records of
its scope if and only if no other object below the walked directory looks like one of them. -/
theorem scanQueries_exact_iff (hwire : Tells wire claims) (hb : Written wire claims b) {fuel : Nat}
    (hfuel : b.walkFuel ≤ fuel) {ns workflowID : String}
    (hscope : validateQueryScope ns workflowID = .ok ()) :
    (∀ status, (∃ records,
        b.exec (listWorkflows wire fuel (some ⟨ns, workflowID, status, "", 0, ""⟩)) =
          (.ok records, b) ∧ records.Nodup ∧
        ∀ record, record ∈ records ↔ StoredWorkflow b ns workflowID status record) ↔
      ∀ key, Below b (scanRoot ns workflowID) key → ¬ LooksLikeWorkflow key) ∧
    (∀ status, (∃ records,
        b.exec (listActivitiesQuery wire fuel (some ⟨ns, workflowID, "", status, "", 0, ""⟩)) =
          (.ok records, b) ∧ records.Nodup ∧
        ∀ record, record ∈ records ↔ StoredActivity b ns workflowID status record) ↔
      ∀ key, Below b (scanRoot ns workflowID) key → ¬ LooksLikeActivity key) := by
  obtain ⟨paths, hwalk, hpaths⟩ := exec_walkOpenDAL_of_fuel hfuel (scanRoot ns workflowID)
  have hroot := length_scanRoot ns workflowID
  have hfiled := hb.filed
  constructor
  · intro status
    rw [exec_listWorkflows status hscope hwalk]
    constructor
    · intro h key hbelow hlooks
      obtain ⟨records, hrun, -⟩ := h
      obtain ⟨err, herr⟩ := (picksWorkflows hwire).exec_error hfiled hroot hpaths hbelow hlooks
      rw [herr] at hrun
      cases hrun
    · intro hnone
      obtain ⟨records, hrun, hnodup, hmem⟩ :=
        (picksWorkflows hwire).exec_ok hfiled hroot hpaths hnone
      refine ⟨records, hrun, hnodup, ?_⟩
      intro record
      rw [hmem record]
      exact mem_workflows_iff hfiled
  · intro status
    rw [exec_listActivitiesQuery status hscope hwalk]
    constructor
    · intro h key hbelow hlooks
      obtain ⟨records, hrun, -⟩ := h
      obtain ⟨err, herr⟩ := (picksActivities hwire).exec_error hfiled hroot hpaths hbelow hlooks
      rw [herr] at hrun
      cases hrun
    · intro hnone
      obtain ⟨records, hrun, hnodup, hmem⟩ :=
        (picksActivities hwire).exec_ok hfiled hroot hpaths hnone
      refine ⟨records, hrun, hnodup, ?_⟩
      intro record
      rw [hmem record]
      exact mem_activities_iff hfiled

end Exact

section Clash

theorem tells_claimedWire : Tells claimedWire claimCodec := by
  constructor
  · intro key data record hother hdata hrecord
    cases key with
    | workflow key => exact absurd trivial hother
    | item kind key =>
      cases kind <;> (obtain ⟨r, rfl, -⟩ := hdata; cases hrecord)
    | latest ns workflowID | due key =>
      obtain ⟨r, rfl⟩ := hdata
      cases hrecord
  · intro key data record hother hdata hrecord
    cases key with
    | workflow key =>
      obtain ⟨r, rfl, -⟩ := hdata
      cases hrecord
    | item kind key =>
      cases kind with
      | activity => exact absurd trivial hother
      | timer | event | claim =>
        obtain ⟨r, rfl, -⟩ := hdata
        cases hrecord
    | latest ns workflowID | due key =>
      obtain ⟨r, rfl⟩ := hdata
      cases hrecord

def workflowTimer : TimerRecord :=
  { napTimer with key := some ⟨"default", "wf", "run", "workflow"⟩ }

/-- The bucket after the workflow and that timer were put. -/
def workflowTimerBucket : Bucket claimedWire.Bytes :=
  ((⟨∅, [], 0⟩ : Bucket claimedWire.Bytes).exec
    ((RecordWrite.workflow napWorkflow).code claimedWire claimCodec)).2.exec
      ((RecordWrite.timer workflowTimer).code claimedWire claimCodec) |>.2

theorem written_workflowTimerBucket : Written claimedWire claimCodec workflowTimerBucket :=
  .completed _ (.completed _ (.empty 0))

private theorem below_workflowTimer :
    Below workflowTimerBucket (scanRoot "default" "")
      (.item .timer ⟨"default", "wf", "run", "workflow"⟩) := by
  refine ⟨rfl, ?_, ?_⟩
  · rfl
  · decide

/-- Both puts succeeded, and the record of the workflow cannot be listed any more. -/
theorem listWorkflows_fails_beside_workflowTimer :
    Written claimedWire claimCodec workflowTimerBucket ∧
      validateQueryScope "default" "" = .ok () ∧
      StoredWorkflow workflowTimerBucket "default" "" .unspecified napWorkflow ∧
      ∃ err, workflowTimerBucket.exec (listWorkflows claimedWire workflowTimerBucket.walkFuel
        (some ⟨"default", "", .unspecified, "", 0, ""⟩)) = (.error err, workflowTimerBucket) := by
  have hscope : validateQueryScope "default" "" = .ok () := rfl
  refine ⟨written_workflowTimerBucket, hscope, ?_, ?_⟩
  · exact ⟨⟨⟨"default", "wf", "run"⟩, rfl, by decide⟩, rfl, ⟨.inr rfl, .inl rfl⟩, .inl rfl⟩
  · obtain ⟨paths, hwalk, hpaths⟩ :=
      exec_walkOpenDAL_of_fuel (le_refl workflowTimerBucket.walkFuel) (scanRoot "default" "")
    rw [exec_listWorkflows .unspecified hscope hwalk]
    exact (picksWorkflows tells_claimedWire).exec_error written_workflowTimerBucket.filed
      (length_scanRoot "default" "") hpaths below_workflowTimer rfl

/-- The timer is in the way of the workflows of its bucket and not of the activities. -/
theorem scanQueries_exact_iff_workflowTimer :
    (¬ ∃ records, workflowTimerBucket.exec (listWorkflows claimedWire workflowTimerBucket.walkFuel
        (some ⟨"default", "", .unspecified, "", 0, ""⟩)) = (.ok records, workflowTimerBucket) ∧
      records.Nodup ∧ ∀ record, record ∈ records ↔
        StoredWorkflow workflowTimerBucket "default" "" .unspecified record) ∧
    ∃ records, workflowTimerBucket.exec (listActivitiesQuery claimedWire
        workflowTimerBucket.walkFuel (some ⟨"default", "", "", .unspecified, "", 0, ""⟩)) =
          (.ok records, workflowTimerBucket) ∧
      records.Nodup ∧ ∀ record, record ∈ records ↔
        StoredActivity workflowTimerBucket "default" "" .unspecified record := by
  obtain ⟨hworkflows, hactivities⟩ := scanQueries_exact_iff tells_claimedWire
    written_workflowTimerBucket (le_refl workflowTimerBucket.walkFuel)
    (show validateQueryScope "default" "" = .ok () from rfl)
  constructor
  · intro h
    exact (hworkflows .unspecified).1 h _ below_workflowTimer rfl
  · apply (hactivities .unspecified).2
    intro key hbelow hlooks
    obtain ⟨hvalid, hsome, -⟩ := hbelow
    have hselect := (selectsActivity_iff hvalid).2 (.inr hlooks)
    have hnone : ∀ p ∈ workflowTimerBucket.objects.keys, selectsActivity (render p) = false := by
      decide
    rw [hnone _ (AList.lookup_isSome.1 hsome)] at hselect
    cases hselect

end Clash

end ScanQuery

end Temporaless
