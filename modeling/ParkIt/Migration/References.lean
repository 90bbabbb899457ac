import ParkIt.Migration.Gates
import Mathlib.Data.Option.Defs
import Mathlib.Tactic.Common

/-! Stays and logs refer to the same gates after the migrations, one alone or both in turn. -/
namespace ParkIt.Migration

open GateConfig Serial

/-- The constraints of the old tables. -/
structure Db.Keyed (db : Db) : Prop where
  inIds : (db.gateIns.map (·.id)).Nodup
  inCodes : (db.gateIns.map (·.code)).Nodup
  outIds : (db.gateOuts.map (·.id)).Nodup
  outCodes : (db.gateOuts.map (·.code)).Nodup
  entries : ∀ t ∈ db.parking, ∀ i ∈ t.gateInId, i ∈ db.gateIns.map (·.id)
  exits : ∀ t ∈ db.parking, ∀ i ∈ t.gateOutId, i ∈ db.gateOuts.map (·.id)
  logs : ∀ l ∈ db.abandoned, l.gateOutId ∈ db.gateOuts.map (·.id)

/-- No entry gate has the code of an exit gate, in the old tables and the new one. -/
structure Db.Apart (db : Db) : Prop where
  old : ∀ g ∈ db.gateIns, ∀ h ∈ db.gateOuts, g.code ≠ h.code
  entries : ∀ g ∈ db.gateIns, ∀ h ∈ db.gates.rows, h.code = g.code → h.direction = .IN
  exits : ∀ g ∈ db.gateOuts, ∀ h ∈ db.gates.rows, h.code = g.code → h.direction = .OUT

/-- The new reference is to a gate of this direction that has the code of the old one. -/
def Tracks (gates : List Gate) (direction : Direction) (codeOf : Id → Option String) (i j : Id) :
    Prop :=
  ∃ g ∈ gates, g.id = j ∧ g.direction = direction ∧ codeOf i = some g.code

/-- A stay before and after. -/
structure MovedStay (db db' : Db) (t t' : ParkingTransaction) : Prop where
  entry : Option.Rel (Tracks db'.gates.rows .IN db.inCode) t.gateInId t'.gateInId
  exit : Option.Rel (Tracks db'.gates.rows .OUT db.outCode) t.gateOutId t'.gateOutId
  rest : t' = { t with gateInId := t'.gateInId, gateOutId := t'.gateOutId }

structure MovedLog (db db' : Db) (l l' : AbandonedVehicleLog) : Prop where
  gate : Tracks db'.gates.rows .OUT db.outCode l.gateOutId l'.gateOutId
  rest : l' = { l with gateOutId := l'.gateOutId }

structure Moved (db db' : Db) : Prop where
  stays : List.Forall₂ (MovedStay db db') db.parking db'.parking
  logs : List.Forall₂ (MovedLog db db') db.abandoned db'.abandoned
  gates : db'.gates.Sound gateColumns
  kept : db.gates.rows <+: db'.gates.rows

section Codes
variable {db db' : Db} {i : Id}

theorem inCode_of_mem (h : db.Keyed) {g : GateIn} (hg : g ∈ db.gateIns) :
    db.inCode g.id = some g.code := by
  unfold Db.inCode
  rw [find_of_unique hg (by simp) fun q hq hid =>
    List.inj_on_of_nodup_map h.inIds hq hg (by simpa using hid)]
  rfl

theorem outCode_of_mem (h : db.Keyed) {g : GateOut} (hg : g ∈ db.gateOuts) :
    db.outCode g.id = some g.code := by
  unfold Db.outCode
  rw [find_of_unique hg (by simp) fun q hq hid =>
    List.inj_on_of_nodup_map h.outIds hq hg (by simpa using hid)]
  rfl

theorem posCode_inj {g h : GateOut} (hcode : g.posCode = h.posCode) : g.code = h.code := by
  have hlist := congrArg String.toList hcode
  simp only [GateOut.posCode, String.toList_append] at hlist
  exact String.toList_inj.mp (List.append_cancel_right hlist)

/-- A reference to a code that the new table has with this direction goes there. -/
theorem remapped_eq {gates : List Gate} {direction : Direction} {codeOf : Id → Option String}
    {g : Gate} (hcodes : (gates.map (·.code)).Nodup) (hg : g ∈ gates)
    (hdirection : g.direction = direction) (hcode : codeOf i = some g.code) :
    remapped gates direction codeOf i = g.id := by
  unfold remapped
  rw [hcode]
  dsimp only
  rw [find_of_unique hg (by simpa using hdirection) fun q hq hsame =>
    List.inj_on_of_nodup_map hcodes hq hg (by simpa using And.right (by simpa using hsame))]
  rfl

theorem remapped_tracks {gates : List Gate} {direction : Direction} {codeOf : Id → Option String}
    {g : Gate} (hcodes : (gates.map (·.code)).Nodup) (hg : g ∈ gates)
    (hdirection : g.direction = direction) (hcode : codeOf i = some g.code) :
    Tracks gates direction codeOf i (remapped gates direction codeOf i) :=
  ⟨g, hg, (remapped_eq hcodes hg hdirection hcode).symm, hdirection, hcode⟩

end Codes

section Drop
variable {db db' : Db}

/-- The rows that are filled in, and what the references become. -/
theorem dropOldTables_cases (h : dropOldTables db = some db') :
    ∃ gates pos gates' : _, db.gates.offerAll (db.gateIns.map GateIn.draft) = some gates ∧
      gates.offerAll (db.gateOuts.map fun g => g.draft (posOf pos g)) = some gates' ∧
      ({ db with gates := gates', pos } : Db).remapReferences =
        some { db' with gateIns := db.gateIns, gateOuts := db.gateOuts } := by
  unfold dropOldTables at h
  obtain ⟨gates, hgates, h⟩ := Option.bind_eq_some_iff.mp h
  obtain ⟨pos, -, h⟩ := Option.bind_eq_some_iff.mp h
  obtain ⟨gates', hgates', h⟩ := Option.bind_eq_some_iff.mp h
  obtain ⟨u, hu, h⟩ := Option.bind_eq_some_iff.mp h
  refine ⟨gates, pos, gates', hgates, hgates', ?_⟩
  split at h
  · cases h
    rw [hu]
    unfold Db.remapReferences at hu
    split at hu
    · cases hu
      rfl
    · cases hu
  · cases h

/-- Every old gate has one row in the new table, with its own direction. -/
structure Filled (db : Db) (gates : Table Gate) : Prop where
  sound : gates.Sound gateColumns
  kept : db.gates.rows <+: gates.rows
  entries : ∀ g ∈ db.gateIns, ∃ h ∈ gates.rows, h.code = g.code ∧ h.direction = .IN
  exits : ∀ g ∈ db.gateOuts, ∃ h ∈ gates.rows, h.code = g.code ∧ h.direction = .OUT

theorem filled_of_offers {gates gates' : Table Gate} {pos : Table Pos}
    (hsound : db.gates.Sound gateColumns) (hapart : db.Apart)
    (hgates : db.gates.offerAll (db.gateIns.map GateIn.draft) = some gates)
    (hgates' : gates.offerAll (db.gateOuts.map fun g => g.draft (posOf pos g)) = some gates') :
    Filled db gates' := by
  obtain ⟨hsound1, hins⟩ := offered_of_offerAll hgates hsound
  obtain ⟨hsound2, houts⟩ := offered_of_offerAll hgates' hsound1
  -- where a row of the new table comes from
  have hfrom : ∀ h ∈ gates'.rows, h ∈ db.gates.rows ∨
      (∃ g ∈ db.gateIns, h.code = g.code ∧ h.direction = .IN) ∨
        ∃ g ∈ db.gateOuts, h.code = g.code ∧ h.direction = .OUT := by
    intro h hh
    rcases houts.made h hh with hh | ⟨d, hd, -, n, rfl⟩
    · rcases hins.made h hh with hh | ⟨d, hd, -, n, rfl⟩
      · exact Or.inl hh
      · obtain ⟨g, hg, rfl⟩ := List.mem_map.mp hd
        exact Or.inr (Or.inl ⟨g, hg, rfl, rfl⟩)
    · obtain ⟨g, hg, rfl⟩ := List.mem_map.mp hd
      exact Or.inr (Or.inr ⟨g, hg, rfl, rfl⟩)
  refine ⟨hsound2, hins.old.trans houts.old, fun g hg => ?_, fun g hg => ?_⟩
  · have hcode : g.code ∈ gates.codes gateColumns := hins.codes _ (List.mem_map_of_mem hg)
    obtain ⟨h, hh, hcode⟩ := List.mem_map.mp ((houts.old.map _).subset hcode)
    refine ⟨h, hh, hcode, ?_⟩
    rcases hfrom h hh with hold | ⟨q, -, -, hdirection⟩ | ⟨q, hq, hcode', -⟩
    · exact hapart.entries g hg h hold hcode
    · exact hdirection
    · exact absurd (hcode.symm.trans hcode') (hapart.old g hg q hq)
  · have hcode : g.code ∈ gates'.codes gateColumns := houts.codes _ (List.mem_map_of_mem hg)
    obtain ⟨h, hh, hcode⟩ := List.mem_map.mp hcode
    refine ⟨h, hh, hcode, ?_⟩
    rcases hfrom h hh with hold | ⟨q, hq, hcode', -⟩ | ⟨q, -, -, hdirection⟩
    · exact hapart.exits g hg h hold hcode
    · exact absurd (hcode'.symm.trans hcode) (hapart.old q hq g hg)
    · exact hdirection

theorem newIn_tracks {gates : Table Gate} {pos : Table Pos} (hkeyed : db.Keyed)
    (hfilled : Filled db gates) {i : Id} (hi : i ∈ db.gateIns.map (·.id)) :
    Tracks gates.rows .IN db.inCode i (({ db with gates, pos } : Db).newIn i) := by
  obtain ⟨g, hg, rfl⟩ := List.mem_map.mp hi
  obtain ⟨h, hh, hcode, hdirection⟩ := hfilled.entries g hg
  have hcodeOf : db.inCode g.id = some h.code := by rw [inCode_of_mem hkeyed hg, hcode]
  exact remapped_tracks hfilled.sound.codes hh hdirection hcodeOf

theorem newOut_tracks {gates : Table Gate} {pos : Table Pos} (hkeyed : db.Keyed)
    (hfilled : Filled db gates) {i : Id} (hi : i ∈ db.gateOuts.map (·.id)) :
    Tracks gates.rows .OUT db.outCode i (({ db with gates, pos } : Db).newOut i) := by
  obtain ⟨g, hg, rfl⟩ := List.mem_map.mp hi
  obtain ⟨h, hh, hcode, hdirection⟩ := hfilled.exits g hg
  have hcodeOf : db.outCode g.id = some h.code := by rw [outCode_of_mem hkeyed hg, hcode]
  exact remapped_tracks hfilled.sound.codes hh hdirection hcodeOf

theorem rel_map {r : Id → Id → Prop} {f : Id → Id} {ref : Option Id}
    (h : ∀ i ∈ ref, r i (f i)) : Option.Rel r ref (ref.map f) := by
  cases ref with
  | none => exact .none
  | some i => exact .some (h i rfl)

/-- Where the second migration goes through, every stay and every log refers to the gate of the
code and the direction that it referred to before. -/
theorem references_survive (hkeyed : db.Keyed) (hapart : db.Apart)
    (hsound : db.gates.Sound gateColumns) (h : dropOldTables db = some db') : Moved db db' := by
  obtain ⟨gates, pos, gates', hgates, hgates', hremap⟩ := dropOldTables_cases h
  have hfilled := filled_of_offers hsound hapart hgates hgates'
  unfold Db.remapReferences at hremap
  split at hremap
  · have heq := Option.some.inj hremap
    have hrows : db'.gates = gates' := (congrArg Db.gates heq).symm
    have hparking : db'.parking = db.parking.map _ := (congrArg Db.parking heq).symm
    have hlogs : db'.abandoned = db.abandoned.map _ := (congrArg Db.abandoned heq).symm
    refine ⟨?_, ?_, hrows ▸ hfilled.sound, hrows ▸ hfilled.kept⟩
    · rw [hparking, List.forall₂_map_right_iff, List.forall₂_same]
      intro t ht
      refine ⟨rel_map fun i hi => ?_, rel_map fun i hi => ?_, rfl⟩
      · rw [hrows]
        exact newIn_tracks hkeyed hfilled (hkeyed.entries t ht i hi)
      · rw [hrows]
        exact newOut_tracks hkeyed hfilled (hkeyed.exits t ht i hi)
    · rw [hlogs, List.forall₂_map_right_iff, List.forall₂_same]
      intro l hl
      refine ⟨?_, rfl⟩
      rw [hrows]
      exact newOut_tracks hkeyed hfilled (hkeyed.logs l hl)
  · cases hremap

end Drop

section Lot

/-- An entry and an exit, and one stay that used both. -/
def lot : Db where
  gateIns := [{
    id := 1, name := "Entry", code := "GIN-01", gateMode := "BOTH"
    emoneyMinimumBalance := 20000, printDecisionTimeoutSeconds := 15 }]
  gateOuts := [{ id := 2, name := "Exit", code := "GOUT-01", paymentTimeoutSeconds := 60 }]
  parking := [{ id := 7, gateInId := some 1, gateOutId := some 2, entryTime := ⟨0, 0⟩ }]
  abandoned := [{ id := 1, gateOutId := 2 }]

theorem keyed_lot : lot.Keyed := by constructor <;> simp [lot]

theorem references_survive_lot : ∃ db', dropOldTables lot = some db' ∧ Moved lot db' := by
  obtain ⟨db', h⟩ := Option.isSome_iff_exists.mp
    (by decide +kernel : (dropOldTables lot).isSome = true)
  have hapart : lot.Apart := by constructor <;> simp [lot]
  exact ⟨db', h, references_survive keyed_lot hapart
    ⟨List.nodup_nil, List.nodup_nil, fun r hr => absurd hr List.not_mem_nil⟩ h⟩

end Lot

section Both
variable {db u : Db}

/-- The number that the sequence gives to the row of an entry gate. -/
def Db.newInId (db : Db) (i : Id) : Id := 1 + (db.gateIns.findIdx (·.id = i) : Int)

/-- The exit gates come after all entry gates. -/
def Db.newOutId (db : Db) (i : Id) : Id :=
  1 + (db.gateIns.length : Int) + (db.gateOuts.findIdx (·.id = i) : Int)

/-- When both migrations go through: no code is shared, what the booths are called fits, and every
new number that is referred to is a number of the old table as well. -/
structure Db.Movable (db : Db) : Prop where
  codes : ∀ g ∈ db.gateIns, ∀ h ∈ db.gateOuts, g.code ≠ h.code
  booths : ∀ h ∈ db.gateOuts, h.posDraft.fits = true
  entries : ∀ t ∈ db.parking, ∀ i ∈ t.gateInId, db.newInId i ∈ db.gateIns.map (·.id)
  exits : ∀ t ∈ db.parking, ∀ i ∈ t.gateOutId, db.newOutId i ∈ db.gateOuts.map (·.id)
  logs : ∀ l ∈ db.abandoned, db.newOutId l.gateOutId ∈ db.gateOuts.map (·.id)

def migrate (db : Db) : Option Db := (unifyGates db).bind dropOldTables

/-- The state between the two migrations. -/
structure Unified (db u : Db) : Prop where
  gateIns : u.gateIns = db.gateIns
  gateOuts : u.gateOuts = db.gateOuts
  parking : u.parking = db.parking
  abandoned : u.abandoned = db.abandoned
  sound : u.gates.Sound gateColumns
  booths : ∀ g ∈ db.gateOuts, g.posCode ∈ u.pos.codes posColumns
  rows : u.gates.rows = db.gateIns.mapIdx (fun k g => g.draft.make (1 + k)) ++
    db.gateOuts.mapIdx fun k g => (g.draft (posOf u.pos g)).make (1 + db.gateIns.length + k)
  codes : ∀ g ∈ db.gateIns, ∀ h ∈ db.gateOuts, g.code ≠ h.code
  fits : ∀ h ∈ db.gateOuts, h.posDraft.fits = true

theorem sound_empty {K R : Type} (C : Columns K R) : ({} : Table R).Sound C :=
  ⟨List.nodup_nil, List.nodup_nil, fun _ hr => absurd hr List.not_mem_nil⟩

theorem posOf_isSome {pos : Table Pos} {g : GateOut} (h : g.posCode ∈ pos.codes posColumns) :
    (posOf pos g).isSome = true := by
  obtain ⟨p, hp, hcode⟩ := List.mem_map.mp h
  unfold posOf
  rw [Option.isSome_map, List.find?_isSome]
  exact ⟨p, hp, decide_eq_true hcode⟩

theorem booths_of_insertAll {pos : Table Pos}
    (h : ({} : Table Pos).insertAll (db.gateOuts.map GateOut.posDraft) = some pos) :
    ∀ g ∈ db.gateOuts, g.posCode ∈ pos.codes posColumns := by
  intro g hg
  obtain ⟨k, hk, rfl⟩ := List.mem_iff_getElem.mp hg
  rw [Table.codes, (rows_of_insertAll h).1, List.nil_append]
  refine List.mem_map.mpr ⟨db.gateOuts[k].posDraft.make (1 + k), ?_, rfl⟩
  exact List.mem_mapIdx.mpr ⟨k, by simpa using hk, by simp⟩

theorem unified_of_some (h : unifyGates db = some u) : Unified db u := by
  unfold unifyGates at h
  obtain ⟨gates, hgates, h⟩ := Option.bind_eq_some_iff.mp h
  obtain ⟨pos, hpos, h⟩ := Option.bind_eq_some_iff.mp h
  have hbooths := booths_of_insertAll hpos
  have hall : db.gateOuts.filter (fun g => (posOf pos g).isSome) = db.gateOuts :=
    List.filter_eq_self.mpr fun g hg => posOf_isSome (hbooths g hg)
  rw [hall] at h
  obtain ⟨gates', hgates', h⟩ := Option.bind_eq_some_iff.mp h
  cases h
  obtain ⟨hrows, hnext⟩ := rows_of_insertAll hgates
  obtain ⟨hrows', -⟩ := rows_of_insertAll hgates'
  have hnew := (insertAll_isSome.mp (Option.isSome_of_mem hgates')).2.2
  have hfits := (insertAll_isSome.mp (Option.isSome_of_mem hpos)).1
  refine ⟨rfl, rfl, rfl, rfl, ?_, hbooths, ?_, ?_, ?_⟩
  · exact sound_of_insertAll hgates' (sound_of_insertAll hgates (sound_empty _))
  · rw [hrows', hrows, hnext, List.nil_append]
  · intro g hg q hq hcode
    refine hnew _ (List.mem_map_of_mem hq) ?_
    obtain ⟨k, hk, rfl⟩ := List.mem_iff_getElem.mp hg
    rw [Table.codes, hrows, List.nil_append]
    refine List.mem_map.mpr ⟨db.gateIns[k].draft.make (1 + k), ?_, hcode⟩
    exact List.mem_mapIdx.mpr ⟨k, by simpa using hk, by simp⟩
  · exact fun q hq => hfits _ (List.mem_map_of_mem hq)

theorem unifyGates_isSome (hkeyed : db.Keyed)
    (hcodes : ∀ g ∈ db.gateIns, ∀ h ∈ db.gateOuts, g.code ≠ h.code)
    (hfits : ∀ h ∈ db.gateOuts, h.posDraft.fits = true) : ∃ u, unifyGates db = some u := by
  have hins : (({} : Table Gate).insertAll (db.gateIns.map GateIn.draft)).isSome = true := by
    refine insertAll_isSome.mpr ⟨?_, ?_, fun _ _ => List.not_mem_nil⟩
    · simp [GateIn.draft, OldGate.draft]
    · rw [List.map_map]
      exact hkeyed.inCodes
  have hpos : (({} : Table Pos).insertAll (db.gateOuts.map GateOut.posDraft)).isSome = true := by
    refine insertAll_isSome.mpr ⟨?_, ?_, fun _ _ => List.not_mem_nil⟩
    · simpa using hfits
    · rw [List.map_map]
      exact List.Nodup.map_on (fun g hg q hq hcode =>
        List.inj_on_of_nodup_map hkeyed.outCodes hg hq (posCode_inj hcode))
        (List.Nodup.of_map _ hkeyed.outIds)
  obtain ⟨gates, hgates⟩ := Option.isSome_iff_exists.mp hins
  obtain ⟨pos, hpos⟩ := Option.isSome_iff_exists.mp hpos
  have hall : db.gateOuts.filter (fun g => (posOf pos g).isSome) = db.gateOuts :=
    List.filter_eq_self.mpr fun g hg => posOf_isSome (booths_of_insertAll hpos g hg)
  have houts : (gates.insertAll (db.gateOuts.map fun g => g.draft (posOf pos g))).isSome = true := by
    refine insertAll_isSome.mpr ⟨?_, ?_, ?_⟩
    · simp [GateOut.draft, OldGate.draft]
    · rw [List.map_map]
      exact hkeyed.outCodes
    · intro d hd
      obtain ⟨g, hg, rfl⟩ := List.mem_map.mp hd
      rw [Table.codes, (rows_of_insertAll hgates).1, List.nil_append]
      intro hmem
      obtain ⟨r, hr, hcode⟩ := List.mem_map.mp hmem
      obtain ⟨k, hk, rfl⟩ := List.mem_mapIdx.mp hr
      exact hcodes _ (List.getElem_mem hk) g hg hcode
  obtain ⟨gates', hgates'⟩ := Option.isSome_iff_exists.mp houts
  refine ⟨{ db with gates := gates', pos }, ?_⟩
  unfold unifyGates
  rw [hgates, Option.bind_eq_bind, Option.bind_some, hpos, Option.bind_eq_bind, Option.bind_some]
  dsimp only
  rw [hall, hgates']
  rfl


section Numbers
variable {ε : Type} {l : List ε} {key : ε → Id} {i : Id}

/-- The row with a number stands where the number is found first. -/
theorem getElem_findIdx (h : i ∈ l.map key) :
    ∃ (hk : l.findIdx (key · = i) < l.length), key l[l.findIdx (key · = i)] = i := by
  obtain ⟨a, ha, hkey⟩ := List.mem_map.mp h
  have hk : l.findIdx (key · = i) < l.length :=
    List.findIdx_lt_length_of_exists ⟨a, ha, by simpa using hkey⟩
  exact ⟨hk, by simpa using List.findIdx_getElem (w := hk)⟩

end Numbers

/-- The new row of an entry gate. -/
theorem entry_row (hu : Unified db u) {i : Id} (hi : i ∈ db.gateIns.map (·.id)) :
    ∃ g ∈ db.gateIns, g.id = i ∧ g.draft.make (db.newInId i) ∈ u.gates.rows := by
  obtain ⟨hk, hid⟩ := getElem_findIdx hi
  refine ⟨_, List.getElem_mem hk, hid, ?_⟩
  rw [hu.rows]
  exact List.mem_append_left _ (List.mem_mapIdx.mpr ⟨_, hk, rfl⟩)

theorem exit_row (hu : Unified db u) {i : Id} (hi : i ∈ db.gateOuts.map (·.id)) :
    ∃ g ∈ db.gateOuts, g.id = i ∧
      (g.draft (posOf u.pos g)).make (db.newOutId i) ∈ u.gates.rows := by
  obtain ⟨hk, hid⟩ := getElem_findIdx hi
  refine ⟨_, List.getElem_mem hk, hid, ?_⟩
  rw [hu.rows]
  exact List.mem_append_right _ (List.mem_mapIdx.mpr ⟨_, hk, rfl⟩)

theorem newIn_eq (hkeyed : db.Keyed) (hu : Unified db u) {i : Id}
    (hi : i ∈ db.gateIns.map (·.id)) : u.newIn i = db.newInId i := by
  obtain ⟨g, hg, rfl, hrow⟩ := entry_row hu hi
  have hcode : u.inCode g.id = some g.code := by
    unfold Db.inCode
    rw [hu.gateIns]
    exact inCode_of_mem hkeyed hg
  exact remapped_eq hu.sound.codes hrow rfl hcode

theorem newOut_eq (hkeyed : db.Keyed) (hu : Unified db u) {i : Id}
    (hi : i ∈ db.gateOuts.map (·.id)) : u.newOut i = db.newOutId i := by
  obtain ⟨g, hg, rfl, hrow⟩ := exit_row hu hi
  have hcode : u.outCode g.id = some g.code := by
    unfold Db.outCode
    rw [hu.gateOuts]
    exact outCode_of_mem hkeyed hg
  exact remapped_eq hu.sound.codes hrow rfl hcode

/-- The second migration finds everything in its place; only the sequence moves on. -/
theorem drop_of_unified (hu : Unified db u) : ∃ n : Int, dropOldTables u =
    ({ u with gates := { u.gates with next := n } } : Db).remapReferences.bind fun d =>
      if d.referencesGates then some { d with gateIns := [], gateOuts := [] } else none := by
  have hins : ∀ d ∈ u.gateIns.map GateIn.draft, d.code ∈ u.gates.codes gateColumns := by
    intro d hd
    obtain ⟨g, hg, rfl⟩ := List.mem_map.mp hd
    rw [hu.gateIns] at hg
    obtain ⟨k, hk, rfl⟩ := List.mem_iff_getElem.mp hg
    refine List.mem_map.mpr ⟨db.gateIns[k].draft.make (1 + k), ?_, rfl⟩
    rw [hu.rows]
    exact List.mem_append_left _ (List.mem_mapIdx.mpr ⟨k, hk, rfl⟩)
  obtain ⟨n, hn⟩ := offerAll_taken (by simp [GateIn.draft, OldGate.draft]) hins
  have hmissing : u.gateOuts.filter (fun g => g.posCode ∉ u.pos.codes posColumns) = [] := by
    refine List.filter_eq_nil_iff.mpr fun g hg => ?_
    rw [hu.gateOuts] at hg
    simpa using hu.booths g hg
  have houts : ∀ d ∈ u.gateOuts.map (fun g => g.draft (posOf u.pos g)),
      d.code ∈ ({ u.gates with next := n } : Table Gate).codes gateColumns := by
    intro d hd
    obtain ⟨g, hg, rfl⟩ := List.mem_map.mp hd
    rw [hu.gateOuts] at hg
    obtain ⟨k, hk, rfl⟩ := List.mem_iff_getElem.mp hg
    refine List.mem_map.mpr ⟨(db.gateOuts[k].draft (posOf u.pos db.gateOuts[k])).make
      (1 + db.gateIns.length + k), ?_, rfl⟩
    rw [hu.rows]
    exact List.mem_append_right _ (List.mem_mapIdx.mpr ⟨k, hk, rfl⟩)
  obtain ⟨m, hm⟩ := offerAll_taken (by simp [GateOut.draft, OldGate.draft]) houts
  refine ⟨m, ?_⟩
  have hpos : u.pos.offerAll ([].map GateOut.posDraft) = some u.pos := rfl
  unfold dropOldTables
  rw [hn, Option.bind_eq_bind, Option.bind_some]
  dsimp only
  rw [hmissing, hpos, Option.bind_eq_bind, Option.bind_some, hm]
  rfl

theorem keyAllows_iff {ids : List Id} {i j : Id} (hi : i ∈ ids) :
    keyAllows ids i j = true ↔ j ∈ ids := by
  unfold keyAllows
  rw [Bool.or_eq_true, decide_eq_true_eq, List.contains_iff_mem]
  constructor
  · rintro (rfl | hj)
    · exact hi
    · exact hj
  · exact Or.inr

theorem inAllowed_iff (hkeyed : db.Keyed) (hu : Unified db u) {i : Id}
    (hi : i ∈ db.gateIns.map (·.id)) :
    u.inAllowed i = true ↔ db.newInId i ∈ db.gateIns.map (·.id) := by
  unfold Db.inAllowed
  rw [newIn_eq hkeyed hu hi, hu.gateIns]
  exact keyAllows_iff hi

theorem outAllowed_iff (hkeyed : db.Keyed) (hu : Unified db u) {i : Id}
    (hi : i ∈ db.gateOuts.map (·.id)) :
    u.outAllowed i = true ↔ db.newOutId i ∈ db.gateOuts.map (·.id) := by
  unfold Db.outAllowed
  rw [newOut_eq hkeyed hu hi, hu.gateOuts]
  exact keyAllows_iff hi

/-- The references that the updates leave are all to rows of the new table. -/
theorem references_of_unified (hkeyed : db.Keyed) (hu : Unified db u) {d : Db}
    (h : u.remapReferences = some d) : d.referencesGates := by
  have hin : ∀ i ∈ db.gateIns.map (·.id), u.newIn i ∈ u.gates.ids gateColumns := by
    intro i hi
    obtain ⟨g, -, -, hrow⟩ := entry_row hu hi
    rw [newIn_eq hkeyed hu hi]
    exact List.mem_map.mpr ⟨_, hrow, rfl⟩
  have hout : ∀ i ∈ db.gateOuts.map (·.id), u.newOut i ∈ u.gates.ids gateColumns := by
    intro i hi
    obtain ⟨g, -, -, hrow⟩ := exit_row hu hi
    rw [newOut_eq hkeyed hu hi]
    exact List.mem_map.mpr ⟨_, hrow, rfl⟩
  unfold Db.remapReferences at h
  split at h
  · cases h
    refine ⟨fun t' ht' => ?_, fun l' hl' => ?_⟩
    · obtain ⟨t, ht, rfl⟩ := List.mem_map.mp ht'
      rw [hu.parking] at ht
      constructor
      · cases hi : t.gateInId with
        | none => rfl
        | some i => simpa [refOk] using hin i (hkeyed.entries t ht i hi)
      · cases hi : t.gateOutId with
        | none => rfl
        | some i => simpa [refOk] using hout i (hkeyed.exits t ht i hi)
    · obtain ⟨l, hl, rfl⟩ := List.mem_map.mp hl'
      rw [hu.abandoned] at hl
      exact hout _ (hkeyed.logs l hl)
  · cases h

theorem forall_of_all {α : Type} {p : α → Bool} {o : Option α} :
    o.all p = true ↔ ∀ a ∈ o, p a = true := by
  cases o <;> simp

/-- What the foreign keys to the old tables ask of the new numbers. -/
theorem remapped_isSome_iff (hkeyed : db.Keyed) (hu : Unified db u) :
    u.remapReferences.isSome = true ↔
      (∀ t ∈ db.parking, ∀ i ∈ t.gateInId, db.newInId i ∈ db.gateIns.map (·.id)) ∧
        (∀ t ∈ db.parking, ∀ i ∈ t.gateOutId, db.newOutId i ∈ db.gateOuts.map (·.id)) ∧
          ∀ l ∈ db.abandoned, db.newOutId l.gateOutId ∈ db.gateOuts.map (·.id) := by
  have hasked : u.remapReferences.isSome = true ↔
      (∀ t ∈ db.parking, t.gateInId.all u.inAllowed) ∧
        (∀ t ∈ db.parking, t.gateOutId.all u.outAllowed) ∧
          ∀ l ∈ db.abandoned, u.outAllowed l.gateOutId := by
    unfold Db.remapReferences
    rw [hu.parking, hu.abandoned]
    split
    · simpa using ‹_›
    · exact ⟨fun h => (Bool.false_ne_true h).elim, fun h => absurd h ‹_›⟩
  rw [hasked]
  refine and_congr (forall₂_congr fun t ht => ?_) (and_congr (forall₂_congr fun t ht => ?_)
    (forall₂_congr fun l hl => outAllowed_iff hkeyed hu (hkeyed.logs l hl)))
  · rw [forall_of_all]
    exact forall₂_congr fun i hi => inAllowed_iff hkeyed hu (hkeyed.entries t ht i hi)
  · rw [forall_of_all]
    exact forall₂_congr fun i hi => outAllowed_iff hkeyed hu (hkeyed.exits t ht i hi)

theorem dropped_isSome_iff (hkeyed : db.Keyed) (hu : Unified db u) :
    (dropOldTables u).isSome = true ↔ u.remapReferences.isSome = true := by
  obtain ⟨n, hn⟩ := drop_of_unified hu
  have hsame : ({ u with gates := { u.gates with next := n } } : Db).remapReferences =
      u.remapReferences.map fun d => { d with gates := { d.gates with next := n } } := by
    unfold Db.remapReferences
    split
    · rw [if_pos ‹_›]
      rfl
    · rw [if_neg ‹_›]
      rfl
  rw [hn, hsame]
  cases hd : u.remapReferences with
  | none => simp
  | some d =>
    have hrefs : d.referencesGates := references_of_unified hkeyed hu hd
    have hrefs' : ({ d with gates := { d.gates with next := n } } : Db).referencesGates := hrefs
    simp [hrefs']

/-- Both migrations go through exactly where no code is shared, the booths can be named, and every
number that a stay or a log gets is a number of the old table, too: the foreign key to that table
is dropped only afterwards. -/
theorem migrate_isSome_iff (hkeyed : db.Keyed) : (migrate db).isSome = true ↔ db.Movable := by
  unfold migrate
  constructor
  · intro h
    obtain ⟨db', hdb'⟩ := Option.isSome_iff_exists.mp h
    obtain ⟨u, hu, hdrop⟩ := Option.bind_eq_some_iff.mp hdb'
    have hunified := unified_of_some hu
    have hremap := (dropped_isSome_iff hkeyed hunified).mp (Option.isSome_of_mem hdrop)
    obtain ⟨hentries, hexits, hlogs⟩ := (remapped_isSome_iff hkeyed hunified).mp hremap
    exact ⟨hunified.codes, hunified.fits, hentries, hexits, hlogs⟩
  · rintro ⟨hcodes, hbooths, hentries, hexits, hlogs⟩
    obtain ⟨u, hu⟩ := unifyGates_isSome hkeyed hcodes hbooths
    have hunified := unified_of_some hu
    rw [hu, Option.bind_some, dropped_isSome_iff hkeyed hunified,
      remapped_isSome_iff hkeyed hunified]
    exact ⟨hentries, hexits, hlogs⟩

theorem migrate_isSome_iff_lot : (migrate lot).isSome = true ↔ lot.Movable :=
  migrate_isSome_iff keyed_lot

/-- The daemon of an entry gate is started with the settings of its old row. -/
structure Keeps (g : GateIn) (config : DaemonConfig) : Prop where
  gate : ∃ n, config.gate = g.draft.make n
  gateMode : config.gateMode = .str g.gateMode
  emoneyMinimumBalance : config.emoneyMinimumBalance = .num g.emoneyMinimumBalance
  printDecisionTimeoutSeconds :
    config.printDecisionTimeoutSeconds = .num g.printDecisionTimeoutSeconds
  openCommand : config.openCommand = text g.openCommand
  closeCommand : config.closeCommand = text g.closeCommand
  pulseDurationMs : config.pulseDurationMs = number g.pulseDurationMs
  printer : config.hardwareConfig.get "ticket_printer" = some g.printer
  audio : config.hardwareConfig.get "audio" = some g.audio
  led : config.hardwareConfig.get "led" = some g.led

theorem keeps_of_row (g : GateIn) (n : Int) : Keeps g (buildConfig (g.draft.make n)) :=
  ⟨⟨n, rfl⟩, rfl, rfl, rfl, rfl, rfl, rfl, rfl, rfl, rfl⟩

/-- The second migration leaves the rows of the first. -/
theorem rows_of_drop (hu : Unified db u) {db' : Db} (h : dropOldTables u = some db') :
    db'.gates.rows = u.gates.rows := by
  obtain ⟨n, hn⟩ := drop_of_unified hu
  rw [hn] at h
  obtain ⟨d, hd, hdrop⟩ := Option.bind_eq_some_iff.mp h
  have hrows : d.gates.rows = u.gates.rows := by
    unfold Db.remapReferences at hd
    split at hd
    · cases hd
      rfl
    · cases hd
  split at hdrop
  · cases hdrop
    exact hrows
  · cases hdrop

/-- After both migrations every entry gate has a daemon with its old settings, and no exit gate has
one. -/
theorem daemons_keep_settings {db' : Db} (h : migrate db = some db') :
    (∀ g ∈ db.gateIns, ∃ config, daemonFor db'.gates.rows g.code = some (some config) ∧
      Keeps g config) ∧
    ∀ g ∈ db.gateOuts, daemonFor db'.gates.rows g.code = some none := by
  obtain ⟨u, hu, hdrop⟩ := Option.bind_eq_some_iff.mp h
  have hunified := unified_of_some hu
  have hfound : ∀ r ∈ u.gates.rows,
      db'.gates.rows.find? (·.code = r.code) = some r := by
    intro r hr
    rw [rows_of_drop hunified hdrop]
    refine find_of_unique hr (by simp) fun q hq hcode => ?_
    exact List.inj_on_of_nodup_map hunified.sound.codes hq hr (of_decide_eq_true hcode)
  constructor
  · intro g hg
    obtain ⟨k, hk, rfl⟩ := List.mem_iff_getElem.mp hg
    have hrow : db.gateIns[k].draft.make (1 + k) ∈ u.gates.rows := by
      rw [hunified.rows]
      exact List.mem_append_left _ (List.mem_mapIdx.mpr ⟨k, hk, rfl⟩)
    refine ⟨_, ?_, keeps_of_row db.gateIns[k] (1 + k)⟩
    exact congrArg (Option.map fun gate : Gate =>
      if gate.direction = .IN then some (buildConfig gate) else none) (hfound _ hrow)
  · intro g hg
    obtain ⟨k, hk, rfl⟩ := List.mem_iff_getElem.mp hg
    have hrow : (db.gateOuts[k].draft (posOf u.pos db.gateOuts[k])).make
        (1 + db.gateIns.length + k) ∈ u.gates.rows := by
      rw [hunified.rows]
      exact List.mem_append_right _ (List.mem_mapIdx.mpr ⟨k, hk, rfl⟩)
    exact congrArg (Option.map fun gate : Gate =>
      if gate.direction = .IN then some (buildConfig gate) else none) (hfound _ hrow)

theorem daemons_keep_settings_lot : ∃ db', migrate lot = some db' ∧
    (∀ g ∈ lot.gateIns, ∃ config, daemonFor db'.gates.rows g.code = some (some config) ∧
      Keeps g config) ∧
    ∀ g ∈ lot.gateOuts, daemonFor db'.gates.rows g.code = some none := by
  obtain ⟨db', h⟩ := Option.isSome_iff_exists.mp
    (by decide +kernel : (migrate lot).isSome = true)
  exact ⟨db', h, daemons_keep_settings h⟩

end Both
end ParkIt.Migration
