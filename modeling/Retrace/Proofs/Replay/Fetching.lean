import Retrace.Proofs.Replay.Markers

/-!
# Fetching snapshots

The snapshots of all checkpoints are fetched by their ids, and each that arrives is attached to the
first checkpoint with its id. Failures do not keep the others from arriving; the first of them is
complained about. A later checkpoint with an id that stands at an earlier one receives nothing.

* `Checkpoint.receiving`, `firstFailure?`: what a checkpoint should receive, and what should be
  complained about.
* `Replay.getElem?_attach`, `Replay.checkpoints_deliverAll`: what attaching one snapshot, and those
  of all checkpoints, does.
* `Replay.receiveAll_eq`: taking in what was fetched changes checkpoints and messages only.
* **`Replay.attachesAll_iff`**: when all checkpoints receive their snapshots.
-/

namespace Retrace

/-- What fetching gives for each id. -/
abbrev Fetcher := String → Except FetchError Snapshot

/-- The error of fetching, if it fails. -/
def Fetcher.failure? (fetch : Fetcher) (id : String) : Option FetchError :=
  match fetch id with
  | .ok _ => none
  | .error e => some e

/-- The error of the first id whose snapshot is not fetched. -/
def Fetcher.firstFailure? (fetch : Fetcher) (ids : List String) : Option FetchError :=
  ids.findSome? fetch.failure?

/-- The complaint about a failure. -/
def FetchError.complaint (e : FetchError) : Message :=
  { channel := .stderr, content := e.message }

namespace Checkpoint

/-- The checkpoint with the snapshot fetched for its id; when fetching fails it keeps what it
had. -/
def receiving (fetch : Fetcher) (c : Checkpoint) : Checkpoint :=
  match fetch c.id with
  | .ok snapshot => { c with snapshot := some snapshot }
  | .error _ => c

variable {fetch : Fetcher} {c : Checkpoint}

theorem receiving_of_ok {snapshot : Snapshot} (h : fetch c.id = .ok snapshot) :
    c.receiving fetch = { c with snapshot := some snapshot } := by
  rw [receiving, h]

@[simp] theorem id_receiving (fetch : Fetcher) (c : Checkpoint) :
    (c.receiving fetch).id = c.id := by
  unfold receiving
  split <;> rfl

@[simp] theorem bare_receiving (fetch : Fetcher) (c : Checkpoint) :
    (c.receiving fetch).bare = c.bare := by
  unfold receiving
  split <;> rfl

@[simp] theorem receiving_receiving (fetch : Fetcher) (c : Checkpoint) :
    (c.receiving fetch).receiving fetch = c.receiving fetch := by
  cases h : fetch c.id with
  | ok snapshot =>
    rw [receiving_of_ok h]
    exact receiving_of_ok h
  | error e =>
    have hc : c.receiving fetch = c := by rw [receiving, h]
    rw [hc, hc]

end Checkpoint

namespace Replay

/-! ## Attaching snapshots -/

theorem ids_attach (id : String) (snapshot : Snapshot) (cs : List Checkpoint) :
    (attach id snapshot cs).map (·.id) = cs.map (·.id) := by
  have hbare := congrArg (List.map Checkpoint.id) (bare_attach id snapshot cs)
  rwa [List.map_map, List.map_map] at hbare

theorem getElem?_attach (id : String) (snapshot : Snapshot) (cs : List Checkpoint) (i : Nat) :
    (attach id snapshot cs)[i]? = cs[i]?.map fun c =>
      if c.id = id ∧ id ∉ (cs.map (·.id)).take i then { c with snapshot := some snapshot }
      else c := by
  induction cs generalizing i with
  | nil => rfl
  | cons c cs ih =>
    rw [attach]
    by_cases hid : c.id = id
    · rw [if_pos hid]
      cases i <;> simp [hid]
    · have hne : ¬ id = c.id := Ne.symm hid
      rw [if_neg hid]
      cases i <;> simp [hid, hne, ih]

/-- The checkpoints behind the arrival of what is fetched for an id. -/
def deliver (fetch : Fetcher) (cs : List Checkpoint) (id : String) : List Checkpoint :=
  match fetch id with
  | .ok snapshot => attach id snapshot cs
  | .error _ => cs

theorem ids_deliver (fetch : Fetcher) (cs : List Checkpoint) (id : String) :
    (deliver fetch cs id).map (·.id) = cs.map (·.id) := by
  unfold deliver
  split
  · exact ids_attach ..
  · rfl

theorem getElem?_deliver (fetch : Fetcher) (cs : List Checkpoint) (id : String) (i : Nat) :
    (deliver fetch cs id)[i]? = cs[i]?.map fun c =>
      if c.id = id ∧ c.id ∉ (cs.map (·.id)).take i then c.receiving fetch else c := by
  unfold deliver
  cases h : fetch id with
  | ok snapshot =>
    dsimp only
    rw [getElem?_attach]
    refine congrArg (cs[i]?.map ·) (funext fun c => ?_)
    by_cases hid : c.id = id
    · subst hid
      rw [Checkpoint.receiving_of_ok h]
    · simp [hid]
  | error e =>
    have hkeep : (fun c : Checkpoint =>
        if c.id = id ∧ c.id ∉ (cs.map (·.id)).take i then c.receiving fetch else c) =
        fun c => c := by
      funext c
      split
      · next hid => rw [Checkpoint.receiving, hid.1, h]
      · rfl
    rw [hkeep, Option.map_id']

/-- Once what is fetched for all of the ids has arrived, the first checkpoint with each id has
received its own, and no other checkpoint has changed. -/
theorem getElem?_deliverAll (fetch : Fetcher) (ids : List String) (cs : List Checkpoint)
    (i : Nat) :
    (ids.foldl (deliver fetch) cs)[i]? = cs[i]?.map fun c =>
      if c.id ∈ ids ∧ c.id ∉ (cs.map (·.id)).take i then c.receiving fetch else c := by
  induction ids generalizing cs with
  | nil => simp
  | cons id ids ih =>
    rw [List.foldl_cons, ih, ids_deliver, getElem?_deliver, Option.map_map]
    refine congrArg (cs[i]?.map ·) (funext fun c => ?_)
    by_cases hc : c.id ∈ (cs.map (·.id)).take i
    · simp [hc]
    · by_cases hid : c.id = id
      · have hfirst : id ∉ (cs.map (·.id)).take i := hid ▸ hc
        simp [hid, hfirst]
      · simp [hc, hid]

/-- **What checkpoints receive**, when what is fetched for each of them arrives. -/
theorem checkpoints_deliverAll (fetch : Fetcher) (cs : List Checkpoint) :
    (cs.map (·.id)).foldl (deliver fetch) cs = cs.mapIdx fun i c =>
      if c.id ∈ (cs.map (·.id)).take i then c else c.receiving fetch := by
  refine List.ext_getElem? fun i => ?_
  rw [getElem?_deliverAll, List.getElem?_mapIdx]
  cases h : cs[i]? with
  | none => rfl
  | some c =>
    have hmem : c.id ∈ cs.map (·.id) := List.mem_map_of_mem (List.mem_of_getElem? h)
    rw [Option.map_some, Option.map_some]
    by_cases hc : c.id ∈ (cs.map (·.id)).take i
    · rw [if_neg fun hand => hand.2 hc, if_pos hc]
    · rw [if_pos ⟨hmem, hc⟩, if_neg hc]

/-! ## Taking in what was fetched -/

theorem receiveAll_eq (fetch : Fetcher) (ids : List String) (r : Replay) :
    r.receiveAll (ids.map fun id => (id, fetch id)) =
      ((fetch.firstFailure? ids).isNone,
        { r with
          checkpoints := ids.foldl (deliver fetch) r.checkpoints
          messages := r.messages ++ (fetch.firstFailure? ids).toList.map (·.complaint) }) := by
  -- a failure before these ids is the only one that is complained about
  have go : ∀ (ids : List String) (ok : Bool) (r : Replay),
      (ids.map fun id => (id, fetch id)).foldl (fun p x => receiveOne p.1 p.2 x.1 x.2) (ok, r) =
        (ok && (fetch.firstFailure? ids).isNone,
          { r with
            checkpoints := ids.foldl (deliver fetch) r.checkpoints
            messages := r.messages ++
              if ok then (fetch.firstFailure? ids).toList.map (·.complaint) else [] }) := by
    intro ids
    induction ids with
    | nil => intro ok r; cases ok <;> simp [Fetcher.firstFailure?]
    | cons id ids ih =>
      intro ok r
      rw [List.map_cons, List.foldl_cons, List.foldl_cons]
      cases h : fetch id with
      | ok snapshot =>
        have hfirst : fetch.firstFailure? (id :: ids) = fetch.firstFailure? ids := by
          rw [Fetcher.firstFailure?, List.findSome?_cons, Fetcher.failure?, h]
          rfl
        have hdeliver : deliver fetch r.checkpoints id = attach id snapshot r.checkpoints := by
          rw [deliver, h]
        rw [hfirst, hdeliver]
        exact ih ok _
      | error e =>
        have hfirst : fetch.firstFailure? (id :: ids) = some e := by
          rw [Fetcher.firstFailure?, List.findSome?_cons, Fetcher.failure?, h]
        have hdeliver : deliver fetch r.checkpoints id = r.checkpoints := by
          rw [deliver, h]
        rw [hfirst, hdeliver]
        refine (ih false _).trans ?_
        cases ok <;> simp [say, FetchError.complaint]
  exact go ids true r

/-- Fetching, when it gives the same for an id each time: whether nothing failed, and the replay
behind it. -/
def fetched (r : Replay) (fetch : Fetcher) : Bool × Replay := Id.run (r.fetchWith fetch)

theorem fetched_eq {r : Replay} (h : r.checkpoints ≠ []) (fetch : Fetcher) :
    r.fetched fetch = r.announceFetching.receiveAll
      ((r.checkpoints.map (·.id)).map fun id => (id, fetch id)) := by
  have hresults : ∀ ids : List String,
      ids.mapM (m := Id) fetch = ids.map fetch := fun _ => List.idRun_mapM
  unfold fetched fetchWith
  rw [if_neg (by simpa using h), List.map_prod_left_eq_zip, ← hresults]
  rfl

theorem firstFailure?_isNone_iff (fetch : Fetcher) (cs : List Checkpoint) :
    (fetch.firstFailure? (cs.map (·.id))).isNone = true ↔
      ∀ c ∈ cs, ∃ snapshot, fetch c.id = .ok snapshot := by
  have hone : ∀ id, fetch.failure? id = none ↔ ∃ snapshot, fetch id = .ok snapshot := by
    intro id
    unfold Fetcher.failure?
    cases fetch id <;> simp
  rw [Option.isNone_iff_eq_none, Fetcher.firstFailure?, List.findSome?_eq_none_iff,
    List.forall_mem_map]
  exact forall_congr' fun c => imp_congr_right fun _ => hone c.id

/-- What is done to each item by its place is done to each item as such when the places do not
matter. -/
theorem mapIdx_eq_map_iff {α β : Type} {l : List α} {f : Nat → α → β} {g : α → β} :
    l.mapIdx f = l.map g ↔ ∀ i a, l[i]? = some a → f i a = g a := by
  rw [List.mapIdx_eq_iff]
  refine forall_congr' fun i => ?_
  rw [List.getElem?_map]
  cases l[i]? <;> simp [eq_comm]

/-- Every checkpoint receives what was fetched for its id, and keeps what it had when that failed. -/
def AttachesAll (r : Replay) (fetch : Fetcher) : Prop :=
  (r.fetched fetch).2.checkpoints = r.checkpoints.map (·.receiving fetch)

/-- **When all checkpoints receive their snapshots.** Fetching succeeds when no snapshot fails, and
otherwise complains once, about the first that does. It changes the snapshots of checkpoints and
nothing else that is replayed or shown. The first checkpoint with each id receives what was fetched
for it. All checkpoints do exactly when there was nothing to receive for the later ones of an id. -/
theorem attachesAll_iff {r : Replay} (h : r.checkpoints ≠ []) (fetch : Fetcher) :
    let q := (r.fetched fetch).2
    let ids := r.checkpoints.map (·.id)
    ((r.fetched fetch).1 = true ↔ ∀ c ∈ r.checkpoints, ∃ snapshot, fetch c.id = .ok snapshot) ∧
    (∃ said, q.messages = r.messages ++ said ∧
      said.filter (·.channel = .stderr) =
        (fetch.firstFailure? ids).toList.map (·.complaint)) ∧
    (q = { r with checkpoints := q.checkpoints, messages := q.messages } ∧
      q.checkpoints.map (·.bare) = r.checkpoints.map (·.bare)) ∧
    q.checkpoints = r.checkpoints.mapIdx
      (fun i c => if c.id ∈ ids.take i then c else c.receiving fetch) ∧
    (r.AttachesAll fetch ↔ ∀ i c, r.checkpoints[i]? = some c → c.id ∈ ids.take i →
      c.receiving fetch = c) := by
  intro q ids
  obtain ⟨hok, hq⟩ : (r.fetched fetch).1 = (fetch.firstFailure? ids).isNone ∧
      q = { r.announceFetching with
        checkpoints := ids.foldl (deliver fetch) r.checkpoints
        messages := r.announceFetching.messages ++
          (fetch.firstFailure? ids).toList.map (·.complaint) } := by
    have heq := fetched_eq h fetch
    rw [receiveAll_eq] at heq
    exact ⟨congrArg Prod.fst heq, congrArg Prod.snd heq⟩
  have hcheckpoints : q.checkpoints = r.checkpoints.mapIdx
      (fun i c => if c.id ∈ ids.take i then c else c.receiving fetch) := by
    rw [hq]
    exact checkpoints_deliverAll fetch r.checkpoints
  refine ⟨?_, ?_, ⟨?_, ?_⟩, hcheckpoints, ?_⟩
  · rw [hok]
    exact firstFailure?_isNone_iff fetch r.checkpoints
  · rw [hq]
    refine ⟨_, List.append_assoc .., ?_⟩
    cases fetch.firstFailure? ids <;> rfl
  · rw [hq]
    rfl
  · have hbare : ∀ i c, Checkpoint.bare
        (if c.id ∈ ids.take i then c else c.receiving fetch) = c.bare := by
      intro i c
      split
      · rfl
      · exact Checkpoint.bare_receiving fetch c
    rw [hcheckpoints]
    refine List.ext_getElem? fun i => ?_
    simp only [List.getElem?_map, List.getElem?_mapIdx, Option.map_map, Function.comp_def, hbare]
  · show q.checkpoints = _ ↔ _
    rw [hcheckpoints, mapIdx_eq_map_iff]
    refine forall_congr' fun i => forall_congr' fun c => imp_congr_right fun _ => ?_
    by_cases hc : c.id ∈ ids.take i <;> simp [hc, eq_comm]

set_option maxRecDepth 100000 in
/-- Of two checkpoints with ids of their own, one receives its snapshot when fetching the other
fails. -/
theorem attachesAll_markersLog :
    let r := (fresh {} (fun _ => none) (markersLog "3")).scan.2
    let fetch : Fetcher := fun id => if id = "s1" then .ok ⟨[]⟩ else .error (.notFound id)
    r.checkpoints.map (·.id) = ["s1", "s2"] ∧ r.AttachesAll fetch ∧
      (r.fetched fetch).1 = false ∧
      (r.fetched fetch).2.checkpoints.map (·.snapshot.isSome) = [true, false] ∧
      (r.fetched fetch).2.messages.filter (·.channel = .stderr) =
        [(FetchError.notFound "s2").complaint] := by
  intro r fetch
  have hids : r.checkpoints.map (·.id) = ["s1", "s2"] := by decide +kernel
  have hne : r.checkpoints ≠ [] := by
    intro hnil
    rw [hnil] at hids
    cases hids
  have hsilent : r.messages = [] := by decide +kernel
  obtain ⟨hok, ⟨said, hmessages, hsaid⟩, -, -, hiff⟩ := attachesAll_iff hne fetch
  have hall : r.AttachesAll fetch := by
    refine hiff.2 fun i c hc hid => ?_
    -- the only checkpoint behind another one is the second
    have hat : (r.checkpoints.map (·.id))[i]? = some c.id := by rw [List.getElem?_map, hc]; rfl
    rw [hids] at hat hid
    have hfresh : c.id ∉ ["s1", "s2"].take i := by
      match i, hat with
      | 0, _ => simp
      | 1, hat => simp at hat; simp [← hat]
    exact absurd hid hfresh
  refine ⟨hids, hall, ?_, by decide +kernel, ?_⟩
  · have hfailed : ¬ (r.fetched fetch).1 = true := by
      intro hdone
      have hmem : "s2" ∈ r.checkpoints.map (·.id) := by simp [hids]
      obtain ⟨c, hc, hid⟩ := List.mem_map.1 hmem
      obtain ⟨snapshot, hsnapshot⟩ := hok.1 hdone c hc
      rw [hid] at hsnapshot
      cases hsnapshot
    simpa using hfailed
  · rw [hmessages, hsilent, List.nil_append, hsaid, hids]
    rfl

/-- A log with two markers of one snapshot. -/
def repeatedMarkerLog : List String :=
  ["62.0 APEX_CODE,FINEST",
    "0|HEAP_DUMP|[2]|s|A||2",
    "0|HEAP_DUMP|[3]|s|A||3"]

set_option maxRecDepth 100000 in
/-- The second of them receives nothing. -/
theorem not_attachesAll_repeatedMarkerLog :
    ¬ (fresh {} (fun _ => none) repeatedMarkerLog).scan.2.AttachesAll fun _ => .ok ⟨[]⟩ := by
  intro h
  have hsome := congrArg (List.map (·.snapshot.isSome)) h
  revert hsome
  decide +kernel

end Replay

end Retrace
