import SnapshotTable.Proofs.InstantTexts
import SnapshotTable.Proofs.Records
import SnapshotTable.Script.Step

/-! Documents of script steps. A step is written with all its fields, and those with a default may be left out of
a document where they hold it. Every such document is read as the step itself, with all that its files say, in
transactions at any depth that the reader accepts. -/

namespace SnapshotTable
open Json (Carries Field Holds given wordBound signedBound)

/-! ### Files -/

def PartitionValue.Fits : PartitionValue → Prop
  | .long z => -signedBound ≤ z ∧ z < signedBound
  | _ => True

private theorem PartitionValue.carries {v : PartitionValue} (h : v.Fits) :
    Carries ofJson? v v.toJson := by
  cases v with
  | null => exact ⟨trivial, rfl⟩
  | bool b => exact ⟨trivial, rfl⟩
  | text s => exact ⟨trivial, rfl⟩
  | long z =>
    have hword := Json.carries_signedWord h
    exact ⟨hword.plain, congrArg (Option.map long) hword.reads⟩

private theorem PartitionKey.carries {key : PartitionKey} (h : ∀ v ∈ key, v.Fits) :
    Carries ofJson? key key.toJson :=
  Json.carries_map fun v hv => PartitionValue.carries (h v hv)

namespace DataFile

structure Fits (f : DataFile) : Prop where
  partition : ∀ v ∈ f.partition, v.Fits
  sizeBytes : f.sizeBytes < wordBound
  recordCount : f.recordCount < wordBound

/-- A document of a file, with the path and any of the other fields that do not hold their default. -/
inductive Doc (f : DataFile) : Json → Prop
  | mk {partition sizeBytes recordCount : Option Json}
      (hpartition : Field [] (fun key j => j = PartitionKey.toJson key) f.partition partition)
      (hsize : Field 0 (fun n j => j = .int (n : Nat)) f.sizeBytes sizeBytes)
      (hcount : Field 0 (fun n j => j = .int (n : Nat)) f.recordCount recordCount) :
      Doc f (.obj (given [("path", some (.str f.path)), ("partition", partition), ("size-bytes", sizeBytes),
        ("record-count", recordCount)]))

private theorem doc_toJson (f : DataFile) : f.Doc f.toJson :=
  @Doc.mk f (some _) (some _) (some _) rfl rfl rfl

private theorem Doc.carries {f : DataFile} {j : Json} (h : f.Doc j) (hfits : f.Fits) :
    Carries ofJson? f j := by
  obtain @⟨partition, sizeBytes, recordCount, hpartition, hsize, hcount⟩ := h
  have hpath := (Json.carries_str f.path).required
  have hkey : Holds (Json.optional? [] PartitionKey.ofJson?) f.partition partition := by
    refine Carries.optional (hpartition.imp ?_)
    rintro _ rfl
    exact PartitionKey.carries hfits.partition
  have hbytes : Holds (Json.optional? 0 Json.word?) f.sizeBytes sizeBytes := by
    refine Carries.optional (hsize.imp ?_)
    rintro _ rfl
    exact Json.carries_word hfits.sizeBytes
  have hrows : Holds (Json.optional? 0 Json.word?) f.recordCount recordCount := by
    refine Carries.optional (hcount.imp ?_)
    rintro _ rfl
    exact Json.carries_word hfits.recordCount
  refine Json.carries_given (fun _ => rfl) rfl (by simp)
    ⟨hpath.plain, hkey.plain, hbytes.plain, hrows.plain⟩ ?_
  simp only [List.map, Option.bind_eq_bind, Option.bind_some, hpath.reads, hkey.reads, hbytes.reads, hrows.reads]
  rfl

private theorem Doc.depth_le {f : DataFile} {j : Json} (h : f.Doc j) : j.depth ≤ f.toJson.depth := by
  obtain ⟨hpartition, hsize, hcount⟩ := h
  exact Json.depth_given_le (.cons (Json.Within.refl _) (.cons (hpartition.within fun _ => Json.depth_le_of_eq)
    (.cons (hsize.within fun _ => Json.depth_le_of_eq) (.cons (hcount.within fun _ => Json.depth_le_of_eq) .nil))))

private theorem carries_docs {files : List DataFile} {items : List Json}
    (h : List.Forall₂ Doc files items)
    (hfits : ∀ f ∈ files, f.Fits) : Carries (Json.list? ofJson?) files (.arr items) := by
  apply Json.carries_list
  induction h with
  | nil => exact .nil
  | cons hdoc _ ih =>
    obtain ⟨hfirst, hrest⟩ := List.forall_mem_cons.mp hfits
    exact .cons (hdoc.carries hfirst) (ih hrest)

private theorem docs_toJson (files : List DataFile) : List.Forall₂ Doc files (files.map toJson) := by
  rw [List.forall₂_map_right_iff, List.forall₂_same]
  exact fun f _ => f.doc_toJson

private theorem depthItems_docs_le {files : List DataFile} {items : List Json}
    (h : List.Forall₂ Doc files items) :
    Json.depthItems items ≤ Json.depthItems (files.map toJson) := by
  induction h with
  | nil => exact Nat.le_refl _
  | cons hdoc _ ih =>
    have hle := hdoc.depth_le
    simp only [List.map_cons, Json.depthItems]
    omega

end DataFile

/-! ### Steps -/

namespace Step

def record (kind : StepKind) (fields : List (String × Option Json)) : Json :=
  .obj (given (("op", some (.str kind.name)) :: fields))

mutual

def Fits : Step → Prop
  | .append files => ∀ f ∈ files, f.Fits
  | .delete _ _ => True
  | .replace _ added => ∀ f ∈ added, f.Fits
  | .overwrite added _ => ∀ f ∈ added, f.Fits
  | .transaction steps => FitAll steps
  | .rollback snapshot before => (∀ id, snapshot = some id → id < wordBound) ∧ ∀ t, before = some t → t.Dated
  | .appendsBetween base tip => base < wordBound ∧ tip < wordBound
  | .appendsAfter base => base < wordBound
  | .scan snapshot => ∀ id, snapshot = some id → id < wordBound

def FitAll : List Step → Prop
  | [] => True
  | step :: rest => Fits step ∧ FitAll rest

end

mutual

inductive Doc : Step → Json → Prop
  | append {files : List DataFile} {items : List Json} (hfiles : List.Forall₂ DataFile.Doc files items) :
      Doc (.append files) (record .append [("files", some (.arr items))])
  | delete {paths : List String} {validate : Bool} {checked : Option Json}
      (hchecked : Field false (fun b j => j = .bool b) validate checked) :
      Doc (.delete paths validate) (record .delete [("paths", some (pathsJson paths)), ("validate", checked)])
  | replace {removed : List String} {added : List DataFile} {items : List Json}
      (hadded : List.Forall₂ DataFile.Doc added items) :
      Doc (.replace removed added)
        (record .replace [("delete", some (pathsJson removed)), ("add", some (.arr items))])
  | overwrite {added : List DataFile} {removed : List String} {files paths : Option Json}
      (hadded : Field [] (fun fs j => ∃ items, List.Forall₂ DataFile.Doc fs items ∧ j = .arr items) added files)
      (hremoved : Field [] (fun ps j => j = pathsJson ps) removed paths) :
      Doc (.overwrite added removed) (record .overwrite [("add", files), ("delete", paths)])
  | transaction {steps : List Step} {items : List Json} (hsteps : Docs steps items) :
      Doc (.transaction steps) (record .transaction [("steps", some (.arr items))])
  | rollback {snapshot : Option SnapshotId} {before : Option Instant} {id time : Option Json}
      (hid : Field none (fun id j => j = idJson id) snapshot id)
      (htime : Field none (fun t j => j = timeJson t) before time) :
      Doc (.rollback snapshot before) (record .rollback [("snapshot", id), ("before", time)])
  | appendsBetween (base tip : SnapshotId) :
      Doc (.appendsBetween base tip)
        (record .appendsBetween [("from", some (.int (base : Nat))), ("to", some (.int (tip : Nat)))])
  | appendsAfter (base : SnapshotId) :
      Doc (.appendsAfter base) (record .appendsAfter [("from", some (.int (base : Nat)))])
  | scan {snapshot : Option SnapshotId} {id : Option Json}
      (hid : Field none (fun id j => j = idJson id) snapshot id) :
      Doc (.scan snapshot) (record .scan [("snapshot", id)])

inductive Docs : List Step → List Json → Prop
  | nil : Docs [] []
  | cons {step : Step} {rest : List Step} {item : Json} {items : List Json} (hstep : Doc step item)
      (hrest : Docs rest items) : Docs (step :: rest) (item :: items)

end

mutual

private theorem doc_toJson : ∀ s : Step, s.Doc s.toJson
  | .append files => .append (DataFile.docs_toJson files)
  | .delete _ _ => @Doc.delete _ _ (some _) rfl
  | .replace _ added => .replace (DataFile.docs_toJson added)
  | .overwrite added _ => @Doc.overwrite _ _ (some _) (some _) ⟨_, DataFile.docs_toJson added, rfl⟩ rfl
  | .transaction steps => .transaction (docs_toJson steps)
  | .rollback _ _ => @Doc.rollback _ _ (some _) (some _) rfl rfl
  | .appendsBetween base tip => .appendsBetween base tip
  | .appendsAfter base => .appendsAfter base
  | .scan _ => @Doc.scan _ (some _) rfl

private theorem docs_toJson : ∀ steps : List Step, Docs steps (toJsonList steps)
  | [] => .nil
  | step :: rest => .cons (doc_toJson step) (docs_toJson rest)

end

section Fields
variable {α β : Type} {ra : Option Json → Option α} {rb : Option Json → Option β} {a : α} {b : β}
  {fa fb : Option Json} {name other : String}

private theorem carries_field (make : α → Step) (ha : Holds ra a fa) :
    Carries (fun j => do
      let [x] ← j.fields? [name] | none
      pure (make (← ra x))) (make a) (.obj (given [(name, fa)])) := by
  refine Json.carries_given (fun _ => rfl) rfl (by simp) ha.plain ?_
  simp only [List.map, Option.bind_eq_bind, Option.bind_some, ha.reads]
  rfl

private theorem carries_fields (make : α → β → Step) (hname : name ≠ other) (ha : Holds ra a fa)
    (hb : Holds rb b fb) :
    Carries (fun j => do
      let [x, y] ← j.fields? [name, other] | none
      pure (make (← ra x) (← rb y))) (make a b) (.obj (given [(name, fa), (other, fb)])) := by
  refine Json.carries_given (fun _ => rfl) rfl (by simpa using hname) ⟨ha.plain, hb.plain⟩ ?_
  simp only [List.map, Option.bind_eq_bind, Option.bind_some, ha.reads, hb.reads]
  rfl

end Fields

private theorem carries_paths (paths : List String) :
    Carries (Json.list? Json.str?) paths (pathsJson paths) :=
  Json.carries_map fun path _ => Json.carries_str path

private theorem carries_id {id : Option SnapshotId} (h : ∀ n, id = some n → n < wordBound) :
    Carries (Json.nullable? SnapshotId.ofJson?) id (idJson id) := by
  cases id with
  | none => exact Json.carries_none
  | some n => exact Json.carries_some (Json.carries_word (h n rfl)) nofun

private theorem carries_time {time : Option Instant} (h : ∀ t, time = some t → t.Dated) :
    Carries (Json.nullable? timeOfJson?) time (timeJson time) := by
  cases time with
  | none => exact Json.carries_none
  | some t => exact Json.carries_some (Json.carries_text (Instant.ofText?_document (h t rfl))) nofun

/-! The fields of each kind of step, given what nested steps are read as. -/

section Kinds
variable {nested : Json → Option Step} {files added : List DataFile} {items : List Json}
  {paths removed : List String}

private theorem carries_append (h : List.Forall₂ DataFile.Doc files items)
    (hfits : ∀ f ∈ files, f.Fits) :
    Carries (ofFields? nested .append) (.append files) (.obj (given [("files", some (.arr items))])) :=
  carries_field .append (DataFile.carries_docs h hfits).required

private theorem carries_delete {validate : Bool} {checked : Option Json}
    (h : Field false (fun b j => j = .bool b) validate checked) :
    Carries (ofFields? nested .delete) (.delete paths validate)
      (.obj (given [("paths", some (pathsJson paths)), ("validate", checked)])) := by
  have hchecked : Holds (Json.optional? false Json.bool?) validate checked := by
    refine Carries.optional (h.imp ?_)
    rintro _ rfl
    exact Json.carries_bool validate
  exact carries_fields .delete (by decide) (carries_paths paths).required hchecked

private theorem carries_replace (h : List.Forall₂ DataFile.Doc added items)
    (hfits : ∀ f ∈ added, f.Fits) :
    Carries (ofFields? nested .replace) (.replace removed added)
      (.obj (given [("delete", some (pathsJson removed)), ("add", some (.arr items))])) :=
  carries_fields .replace (by decide) (carries_paths removed).required (DataFile.carries_docs h hfits).required

private theorem carries_overwrite {add delete : Option Json} (hfits : ∀ f ∈ added, f.Fits)
    (hadd : Field [] (fun fs j => ∃ items, List.Forall₂ DataFile.Doc fs items ∧ j = .arr items) added add)
    (hdelete : Field [] (fun ps j => j = pathsJson ps) removed delete) :
    Carries (ofFields? nested .overwrite) (.overwrite added removed)
      (.obj (given [("add", add), ("delete", delete)])) := by
  have hadded : Holds (Json.optional? [] (Json.list? DataFile.ofJson?)) added add := by
    refine Carries.optional (hadd.imp ?_)
    rintro _ ⟨items, hitems, rfl⟩
    exact DataFile.carries_docs hitems hfits
  have hremoved : Holds (Json.optional? [] (Json.list? Json.str?)) removed delete := by
    refine Carries.optional (hdelete.imp ?_)
    rintro _ rfl
    exact carries_paths removed
  exact carries_fields .overwrite (by decide) hadded hremoved

private theorem carries_transaction {steps : List Step} (h : List.Forall₂ (Carries nested) steps items) :
    Carries (ofFields? nested .transaction) (.transaction steps)
      (.obj (given [("steps", some (.arr items))])) :=
  carries_field .transaction (Json.carries_list h).required

private theorem holds_id {snapshot : Option SnapshotId} {id : Option Json}
    (h : Field none (fun id j => j = idJson id) snapshot id) (hfits : ∀ n, snapshot = some n → n < wordBound) :
    Holds (Json.optional? none (Json.nullable? SnapshotId.ofJson?)) snapshot id := by
  refine Carries.optional (h.imp ?_)
  rintro _ rfl
  exact carries_id hfits

private theorem carries_rollback {snapshot : Option SnapshotId} {before : Option Instant}
    {id time : Option Json} (hid : Field none (fun id j => j = idJson id) snapshot id)
    (htime : Field none (fun t j => j = timeJson t) before time)
    (hsnapshot : ∀ n, snapshot = some n → n < wordBound) (hbefore : ∀ t, before = some t → t.Dated) :
    Carries (ofFields? nested .rollback) (.rollback snapshot before)
      (.obj (given [("snapshot", id), ("before", time)])) := by
  have hread : Holds (Json.optional? none (Json.nullable? timeOfJson?)) before time := by
    refine Carries.optional (htime.imp ?_)
    rintro _ rfl
    exact carries_time hbefore
  exact carries_fields .rollback (by decide) (holds_id hid hsnapshot) hread

private theorem holds_base {base : SnapshotId} (h : base < wordBound) :
    Holds (Json.required? SnapshotId.ofJson?) base (some (.int (base : Nat))) := (Json.carries_word h).required

private theorem carries_appendsBetween {base tip : SnapshotId} (hbase : base < wordBound)
    (htip : tip < wordBound) :
    Carries (ofFields? nested .appendsBetween) (.appendsBetween base tip)
      (.obj (given [("from", some (.int (base : Nat))), ("to", some (.int (tip : Nat)))])) :=
  carries_fields .appendsBetween (by decide) (holds_base hbase) (holds_base htip)

private theorem carries_appendsAfter {base : SnapshotId} (hbase : base < wordBound) :
    Carries (ofFields? nested .appendsAfter) (.appendsAfter base)
      (.obj (given [("from", some (.int (base : Nat)))])) :=
  carries_field .appendsAfter (holds_base hbase)

private theorem carries_scan {snapshot : Option SnapshotId} {id : Option Json}
    (hid : Field none (fun id j => j = idJson id) snapshot id)
    (hsnapshot : ∀ n, snapshot = some n → n < wordBound) :
    Carries (ofFields? nested .scan) (.scan snapshot) (.obj (given [("snapshot", id)])) :=
  carries_field .scan (holds_id hid hsnapshot)

end Kinds

private theorem kind_ofJson? (kind : StepKind) : StepKind.ofJson? (.str kind.name) = some kind := by
  cases kind <;> rfl

private theorem kind_ofNestedJson? (kind : StepKind) :
    StepKind.ofNestedJson? (.str kind.name) = some kind :=
  kind_ofJson? kind

private theorem carries_record {kind? : Json → Option StepKind}
    (hkind : ∀ kind, kind? (.str kind.name) = some kind)
    {nested : Json → Option Step} {kind : StepKind} {fields : List (String × Option Json)} {step : Step}
    (hop : "op" ∉ fields.map Prod.fst)
    (h : Carries (ofFields? nested kind) step (.obj (given fields))) :
    Carries (fun j => (parts? kind? j).bind fun (kind, fields) => ofFields? nested kind fields) step
      (record kind fields) where
  plain := ⟨trivial, h.plain⟩
  reads := by
    have hnone := Json.filter_given_of_notMem hop
    have hrest : (given fields).filter (·.1 != "op") = given fields := by
      rw [List.filter_eq_self]
      rintro member hmember
      rw [bne_iff_ne]
      rintro hname
      exact hop (List.mem_map.mpr ⟨_, Json.mem_given.mp hmember, hname⟩)
    have hkinds : (given (("op", some (.str kind.name)) :: fields)).filter (·.1 == "op") =
        [("op", .str kind.name)] := by
      rw [given, List.filter_cons_of_pos (by simp), hnone]
    have hothers : (given (("op", some (.str kind.name)) :: fields)).filter (·.1 != "op") = given fields := by
      rw [given, List.filter_cons_of_neg (by simp), hrest]
    have hparts : parts? kind? (record kind fields) = some (kind, .obj (given fields)) := by
      simp only [record, parts?, hkinds, hothers, hkind, Option.map_some]
    rw [hparts]
    exact h.reads

private theorem depth_transaction (items : List Json) :
    (record .transaction [("steps", some (.arr items))]).depth = 2 + Json.depthItems items := by
  change 1 + max 0 (max (1 + Json.depthItems items) 0) = _
  omega

private theorem Doc.depth_pos {s : Step} {j : Json} (h : s.Doc j) : 0 < j.depth := by
  cases h <;> exact Nat.add_pos_left Nat.one_pos _

mutual

/-- Documents of a step carry it, where nested steps are read as deep as the document goes. -/
theorem Doc.carries {kind? : Json → Option StepKind}
    (hkind : ∀ kind, kind? (.str kind.name) = some kind) :
    ∀ {s : Step} {j : Json}, s.Doc j → s.Fits → ∀ {depth : Nat}, j.depth ≤ depth + 1 →
    Carries (fun j => (parts? kind? j).bind fun (kind, fields) => ofFields? (nestedOfJson? depth) kind fields) s j
  | _, _, .append hfiles, hfits, _, _ => carries_record hkind (by simp) (carries_append hfiles hfits)
  | _, _, .delete hchecked, _, _, _ => carries_record hkind (by simp) (carries_delete hchecked)
  | _, _, .replace hadded, hfits, _, _ => carries_record hkind (by simp) (carries_replace hadded hfits)
  | _, _, .overwrite hadded hremoved, hfits, _, _ =>
    carries_record hkind (by simp) (carries_overwrite hfits hadded hremoved)
  | _, _, .transaction hsteps, hfits, depth, hdepth => by
    refine carries_record hkind (by simp) (carries_transaction (hsteps.carries hfits ?_))
    -- Both the object of the transaction and the array of its steps count.
    rw [depth_transaction] at hdepth
    omega
  | _, _, .rollback hid htime, hfits, _, _ =>
    carries_record hkind (by simp) (carries_rollback hid htime hfits.1 hfits.2)
  | _, _, .appendsBetween _ _, hfits, _, _ =>
    carries_record hkind (by simp) (carries_appendsBetween hfits.1 hfits.2)
  | _, _, .appendsAfter _, hfits, _, _ => carries_record hkind (by simp) (carries_appendsAfter hfits)
  | _, _, .scan hid, hfits, _, _ => carries_record hkind (by simp) (carries_scan hid hfits)

private theorem Docs.carries :
    ∀ {steps : List Step} {items : List Json}, Docs steps items → FitAll steps →
    ∀ {depth : Nat}, Json.depthItems items ≤ depth → List.Forall₂ (Carries (nestedOfJson? depth)) steps items
  | _, _, .nil, _, _, _ => .nil
  | _, _, .cons hstep hrest, hfits, 0, hdepth => by
    have hpos := hstep.depth_pos
    rw [Json.depthItems] at hdepth
    omega
  | _, _, .cons hstep hrest, hfits, depth + 1, hdepth => by
    rw [Json.depthItems] at hdepth
    exact .cons (hstep.carries kind_ofNestedJson? hfits.1 (by omega)) (hrest.carries hfits.2 (by omega))

end

private theorem depth_record_le {kind : StepKind} {fields : List (String × Option Json)}
    (full : List (String × Option Json)) (h : List.Forall₂ Json.Within fields full) :
    (record kind fields).depth ≤ (record kind full).depth :=
  Json.depth_given_le (.cons (.refl _) h)

private theorem depth_files_le {files : List DataFile} {items : List Json}
    (h : List.Forall₂ DataFile.Doc files items) :
    (Json.arr items).depth ≤ (filesJson files).depth :=
  Nat.add_le_add_left (DataFile.depthItems_docs_le h) 1

mutual

private theorem Doc.depth_le : ∀ {s : Step} {j : Json}, s.Doc j → j.depth ≤ s.toJson.depth
  | .append files, _, .append hfiles =>
    depth_record_le [("files", some (filesJson files))]
      (.cons (.some (depth_files_le hfiles)) .nil)
  | .delete paths validate, _, .delete hchecked =>
    depth_record_le [("paths", some (pathsJson paths)), ("validate", some (.bool validate))]
      (.cons (.refl _) (.cons (hchecked.within fun _ => Json.depth_le_of_eq) .nil))
  | .replace removed added, _, .replace hadded =>
    depth_record_le [("delete", some (pathsJson removed)), ("add", some (filesJson added))]
      (.cons (.refl _) (.cons (.some (depth_files_le hadded)) .nil))
  | .overwrite added removed, _, .overwrite hadded hremoved =>
    depth_record_le [("add", some (filesJson added)), ("delete", some (pathsJson removed))]
      (.cons (hadded.within (by rintro _ ⟨items, hitems, rfl⟩; exact depth_files_le hitems))
        (.cons (hremoved.within fun _ => Json.depth_le_of_eq) .nil))
  | .transaction steps, _, .transaction hsteps =>
    depth_record_le [("steps", some (.arr (toJsonList steps)))]
      (.cons (.some (Nat.add_le_add_left hsteps.depthItems_le 1)) .nil)
  | .rollback snapshot before, _, .rollback hid htime =>
    depth_record_le [("snapshot", some (idJson snapshot)), ("before", some (timeJson before))]
      (.cons (hid.within fun _ => Json.depth_le_of_eq) (.cons (htime.within fun _ => Json.depth_le_of_eq) .nil))
  | _, _, .appendsBetween _ _ | _, _, .appendsAfter _ => Nat.le_refl _
  | .scan snapshot, _, .scan hid =>
    depth_record_le [("snapshot", some (idJson snapshot))]
      (.cons (hid.within fun _ => Json.depth_le_of_eq) .nil)

private theorem Docs.depthItems_le : ∀ {steps : List Step} {items : List Json}, Docs steps items →
    Json.depthItems items ≤ Json.depthItems (toJsonList steps)
  | _, _, .nil => Nat.le_refl _
  | step :: rest, _, .cons hstep hrest => by
    have hfirst := hstep.depth_le
    have hlater := hrest.depthItems_le
    simp only [toJsonList, Json.depthItems]
    omega

end

private theorem Doc.carries_step {s : Step} {j : Json} (h : s.Doc j) (hfits : s.Fits)
    (hdepth : j.depth ≤ Json.maxDepth) :
    Carries Step.ofJson? s j := by
  have hread := h.carries kind_ofJson? hfits (Nat.le_succ j.depth)
  have hreadable : j.readable = true := by
    rw [Json.readable, Json.sound_of_plain hread.plain, Bool.true_and, decide_eq_true_eq]
    exact hdepth
  refine ⟨hread.plain, ?_⟩
  rw [ofJson?, if_pos hreadable]
  exact hread.reads

private theorem Docs.carries_steps :
    ∀ {steps : List Step} {items : List Json}, Docs steps items → FitAll steps →
    Json.depthItems items ≤ Json.maxDepth → List.Forall₂ (Carries Step.ofJson?) steps items
  | _, _, .nil, _, _ => .nil
  | _, _, .cons hstep hrest, hfits, hdepth => by
    rw [Json.depthItems] at hdepth
    exact .cons (hstep.carries_step hfits.1 (by omega)) (hrest.carries_steps hfits.2 (by omega))

private theorem Docs.carries_script {steps : List Step} {items : List Json} (h : Docs steps items)
    (hfits : FitAll steps) (hdepth : (Json.arr items).depth ≤ Json.maxDepth) :
    Carries scriptOfJson? steps (.arr items) := by
  have hread := Json.carries_list (h.carries_steps hfits (Nat.le_trans (Nat.le_add_left _ 1) hdepth))
  have hreadable : (Json.arr items).readable = true := by
    rw [Json.readable, Json.sound_of_plain hread.plain, Bool.true_and, decide_eq_true_eq]
    exact hdepth
  refine ⟨hread.plain, ?_⟩
  rw [scriptOfJson?, if_pos hreadable]
  exact hread.reads

/-- A script is read back from its text, with any fields left out that hold their default. -/
theorem script_read_back {steps : List Step} (hfits : FitAll steps)
    (hdepth : (Json.arr (toJsonList steps)).depth ≤ Json.maxDepth) {items : List Json} (h : Docs steps items) :
    (Json.parse? (Json.arr items).render).bind scriptOfJson? = some steps ∧
      (Json.parse? (Json.arr items).pretty).bind scriptOfJson? = some steps :=
  (h.carries_script hfits (Nat.le_trans (Nat.add_le_add_left h.depthItems_le 1) hdepth)).parse

/-- A step that nests no deeper than the reader accepts is read back from its text, with every field of every
file, and so it is from a text in which any of its fields that hold their default are left out. -/
theorem step_read_back {s : Step} (hfits : s.Fits) (hdepth : s.toJson.depth ≤ Json.maxDepth) :
    (Json.parse? s.toJson.render).bind Step.ofJson? = some s ∧
      ∀ j, s.Doc j → (Json.parse? j.render).bind Step.ofJson? = some s ∧
        (Json.parse? j.pretty).bind Step.ofJson? = some s := by
  have hread {j : Json} (h : s.Doc j) := (h.carries_step hfits (Nat.le_trans h.depth_le hdepth)).parse
  exact ⟨(hread s.doc_toJson).1, fun j h => hread h⟩

def nestedSample : Step :=
  .transaction [
    .append [{ path := "\"a\"\n\u00fc", partition := [.null, .bool true, .long (-5), .text "b\\"],
               sizeBytes := 18446744073709551615 }],
    .transaction [.rollback none (some ⟨1704067200, 123000000⟩)],
    .overwrite [] []]

def shortSample : Json :=
  .obj [("op", .str "transaction"), ("steps", .arr [
    .obj [("op", .str "append"), ("files", .arr [
      .obj [("path", .str "\"a\"\n\u00fc"), ("partition", .arr [.null, .bool true, .int (-5), .str "b\\"]),
        ("size-bytes", .int 18446744073709551615)]])],
    .obj [("op", .str "transaction"), ("steps", .arr [
      .obj [("op", .str "rollback"), ("before", timeJson (some ⟨1704067200, 123000000⟩))]])],
    .obj [("op", .str "overwrite")]])]

/-- A transaction in a transaction, written whole and with its defaulted fields left out. -/
theorem step_read_back_sample :
    (Json.parse? nestedSample.toJson.render).bind Step.ofJson? = some nestedSample ∧
      (Json.parse? shortSample.render).bind Step.ofJson? = some nestedSample := by
  have hfits : nestedSample.Fits := by
    refine ⟨?_, ⟨⟨nofun, ?_⟩, trivial⟩, nofun, trivial⟩
    · rintro f hf
      rw [List.mem_singleton.mp hf]
      exact ⟨by simp [PartitionValue.Fits, signedBound], by decide, by decide⟩
    · rintro t ⟨⟩
      exact ⟨by decide, by decide⟩
  have hshort : nestedSample.Doc shortSample :=
    .transaction (.cons
      (.append (.cons (@DataFile.Doc.mk _ (some _) (some _) none rfl rfl rfl) .nil))
      (.cons (.transaction (.cons (@Doc.rollback _ _ none (some _) rfl rfl) .nil))
        (.cons (@Doc.overwrite _ _ none none rfl rfl) .nil)))
  obtain ⟨hfull, hread⟩ := step_read_back hfits (by decide)
  exact ⟨hfull, (hread _ hshort).1⟩

end Step
end SnapshotTable
