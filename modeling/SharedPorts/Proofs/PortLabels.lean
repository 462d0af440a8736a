import SharedPorts.Listing
import SharedPorts.Proofs.Json.Members
import SharedPorts.Proofs.Text.Integer
import Mathlib.Data.List.Basic
import Mathlib.Logic.Relation

/-!
# `SharedPorts.Proofs.PortLabels` — where the label of a port comes from

A document may hold a key many times, at every depth. Which of its members count is told here without
reading: a member counts if no later one of its object has the same key. The label of a port then stands
under the one numeral of its number, in the port attributes that count; and what does not count may be
anything at all.

## Contents
- **Overwritten members.** `Json.Overwritten`, and `map_lastOfEach_congr`.
- **Labels.** `PortLabels.LabelOf`, and `PortLabels.Labels`, what stands under a numeral; `ofTree?_congr`.
- **Files.** `PortLabels.LabelsOf` and `ofFile_labels`.
-/

namespace SharedPorts

namespace Json

variable {members front back : Members} {key : Literal} {k : String} {t t' : Tree}

/-! ## Overwritten members -/

/-- **A document without a member that a later one with the same key overwrites**, wherever in it that member
    stands and whatever it holds. -/
inductive Overwritten : Tree → Tree → Prop
  | here {front back : Members} {key : Literal} {k : String} {t : Tree} (hkey : key.text? = some k)
      (h : back.Has k) : Overwritten (.object (front ++ (key, t) :: back)) (.object (front ++ back))
  | item {front back : List Tree} {t t' : Tree} (h : Overwritten t t') :
      Overwritten (.array (front ++ t :: back)) (.array (front ++ t' :: back))
  | member {front back : Members} {key : Literal} {t t' : Tree} (h : Overwritten t t') :
      Overwritten (.object (front ++ (key, t) :: back)) (.object (front ++ (key, t') :: back))

/-- The difference is between two objects, or within two arrays. -/
theorem Overwritten.cases (h : Overwritten t t') :
    (∃ members members', t = .object members ∧ t' = .object members') ∨
      ∃ front u u' back, t = .array (front ++ u :: back) ∧ t' = .array (front ++ u' :: back) ∧ Overwritten u u' := by
  cases h with
  | here hkey h => exact Or.inl ⟨_, _, rfl, rfl⟩
  | item h => exact Or.inr ⟨_, _, _, _, rfl, rfl, h⟩
  | member h => exact Or.inl ⟨_, _, rfl, rfl⟩

/-- What is done to the last of each goes on in front of them. -/
theorem map_lastOfEach_cons {α : Type} (f : Tree → α) {members members' : Members} (m : Literal × Tree)
    (h : (lastOfEach members).map (fun e => (e.1, f e.2)) = (lastOfEach members').map (fun e => (e.1, f e.2))) :
    (lastOfEach (m :: members)).map (fun e => (e.1, f e.2)) =
      (lastOfEach (m :: members')).map (fun e => (e.1, f e.2)) := by
  obtain ⟨key, t⟩ := m
  cases hkey : key.text? with
  | none =>
    rw [lastOfEach_textless hkey, lastOfEach_textless hkey]
    exact h
  | some k =>
    have hany : (lastOfEach members).any (·.1 == k) = (lastOfEach members').any (·.1 == k) := by
      have hmap := congrArg (List.any · (·.1 == k)) h
      rw [List.any_map, List.any_map] at hmap
      exact hmap
    rw [lastOfEach_cons hkey, lastOfEach_cons hkey, hany]
    split
    · exact h
    · rw [List.map_cons, List.map_cons, h]

theorem map_lastOfEach_append {α : Type} (f : Tree → α) {members members' : Members} (front : Members)
    (h : (lastOfEach members).map (fun e => (e.1, f e.2)) = (lastOfEach members').map (fun e => (e.1, f e.2))) :
    (lastOfEach (front ++ members)).map (fun e => (e.1, f e.2)) =
      (lastOfEach (front ++ members')).map (fun e => (e.1, f e.2)) := by
  induction front with
  | nil => exact h
  | cons m front ih => exact map_lastOfEach_cons f m ih

/-- A function that sees no difference within the values sees none between the members that count. -/
theorem map_lastOfEach_congr {α : Type} {f : Tree → α} (hf : ∀ {t t' : Tree}, Overwritten t t' → f t = f t')
    {members members' : Members} (h : Overwritten (.object members) (.object members')) :
    (lastOfEach members).map (fun e => (e.1, f e.2)) = (lastOfEach members').map (fun e => (e.1, f e.2)) := by
  generalize ht : Tree.object members = t at h
  generalize ht' : Tree.object members' = t' at h
  cases h with
  | @here front back key k t hkey h =>
    obtain rfl := Tree.object.inj ht
    obtain rfl := Tree.object.inj ht'
    apply map_lastOfEach_append f front
    rw [lastOfEach_cons hkey, if_pos (any_lastOfEach_iff.mpr h)]
  | item h => exact absurd ht nofun
  | @member front back key t t' h =>
    obtain rfl := Tree.object.inj ht
    obtain rfl := Tree.object.inj ht'
    apply map_lastOfEach_append f front
    cases hkey : key.text? with
    | none => rw [lastOfEach_textless hkey, lastOfEach_textless hkey]
    | some k =>
      rw [lastOfEach_cons hkey, lastOfEach_cons hkey]
      split
      · rfl
      · rw [List.map_cons, List.map_cons, hf h]

end Json

namespace PortLabels

open Json

variable {members : Members} {t : Tree} {l : String} {labels : PortLabels} {p q : Port}

/-! ## Labels -/

/-- **The label in the attributes of a port**: that of the last member for it. Attributes may also be an
    array of the fields in their order, and a missing label is empty. -/
inductive LabelOf : Tree → String → Prop
  | named {members : Members} {lit : Literal} {l : String} (h : LastUnder members "label" (.string lit))
      (hl : lit.text? = some l) : LabelOf (.object members) l
  | unnamed {members : Members} (h : ¬ members.Has "label") : LabelOf (.object members) ""
  | single {lit : Literal} {l : String} (hl : lit.text? = some l) : LabelOf (.array [.string lit]) l
  | empty : LabelOf (.array []) ""

/-- **A member labels a port**: among the port attributes that count, it is the last with its key, and its
    key is the numeral of the port. -/
inductive Labels (members : Members) (key : String) (p : Port) (l : String) : Prop
  | intro {attributes : Members} {t : Tree} (under : LastUnder members "portsAttributes" (.object attributes))
      (numeral : Integer.Numeral key.toList p.toNat) (last : LastUnder attributes key t) (label : LabelOf t l)

theorem labelOf?_eq_some_iff : labelOf? t = some l ↔ ∃ lit, t = .string lit ∧ lit.text? = some l := by
  cases t <;> simp [labelOf?]

/-- What is read of attributes is the label in them. -/
theorem attributes?_eq_some_iff : attributes? t = some l ↔ LabelOf t l := by
  constructor
  · intro h
    unfold attributes? at h
    split at h
    · rename_i members
      cases hlabel : (lastOfEach members).lookup "label" with
      | none =>
        rw [hlabel] at h
        obtain rfl := Option.some.inj h
        exact .unnamed (lookup_lastOfEach_eq_none.mp hlabel)
      | some t =>
        rw [hlabel] at h
        obtain ⟨lit, rfl, hl⟩ := labelOf?_eq_some_iff.mp h
        exact .named (lookup_lastOfEach.mp hlabel) hl
    · obtain rfl := Option.some.inj h
      exact .empty
    · obtain ⟨lit, rfl, hl⟩ := labelOf?_eq_some_iff.mp h
      exact .single hl
    · exact absurd h nofun
  · intro h
    cases h with
    | named h hl =>
      unfold attributes?
      dsimp only
      rw [lookup_lastOfEach.mpr h]
      exact hl
    | unnamed h =>
      unfold attributes?
      dsimp only
      rw [lookup_lastOfEach_eq_none.mpr h]
    | single hl => exact hl
    | empty => rfl

theorem LabelOf.unique {l' : String} (h : LabelOf t l) (h' : LabelOf t l') : l = l' :=
  Option.some.inj ((attributes?_eq_some_iff.mpr h).symm.trans (attributes?_eq_some_iff.mpr h'))

/-- A member labels one port, with one label. -/
theorem Labels.unique {key l' : String} (h : Labels members key p l) (h' : Labels members key q l') :
    p = q ∧ l = l' := by
  obtain ⟨hunder, hnumeral, hlast, hlabel⟩ := h
  obtain ⟨hunder', hnumeral', hlast', hlabel'⟩ := h'
  obtain rfl := Tree.object.inj (hunder.unique hunder')
  obtain rfl := hlast.unique hlast'
  exact ⟨UInt16.toNat_inj.mp (hnumeral.number_unique hnumeral'), hlabel.unique hlabel'⟩

/-- What each member is read as stands under its key. -/
theorem lookup_of_mapM {f : Tree → Option String} {xs : List (String × Tree)} {ys : List (String × String)}
    (h : xs.mapM (fun (key, t) => (key, ·) <$> f t) = some ys) (k : String) :
    (xs.lookup k = none ∧ ys.lookup k = none) ∨
      ∃ t l, xs.lookup k = some t ∧ f t = some l ∧ ys.lookup k = some l := by
  induction xs generalizing ys with
  | nil =>
    obtain rfl := Option.some.inj h
    exact Or.inl ⟨rfl, rfl⟩
  | cons x xs ih =>
    obtain ⟨key, t⟩ := x
    rw [List.mapM_cons] at h
    obtain ⟨y, hy, h⟩ := Option.bind_eq_some_iff.mp h
    obtain ⟨ys, hys, h⟩ := Option.bind_eq_some_iff.mp h
    obtain ⟨l, hl, rfl⟩ := Option.map_eq_some_iff.mp hy
    obtain rfl := Option.some.inj h
    rw [List.lookup_cons, List.lookup_cons]
    by_cases hk : k = key
    · rw [hk, beq_self_eq_true]
      exact Or.inr ⟨t, l, rfl, hl, rfl⟩
    · rw [beq_false_of_ne hk]
      exact ih hys

/-- **The document that labels come from**: the port attributes that count are an object, or there are
    none; and what stands under a key among them is its label. -/
theorem ofTree?_eq_some (h : ofTree? (.object members) = some labels) :
    (¬ members.Has "portsAttributes" ∧ labels = empty) ∨
      ∃ attributes : Members, LastUnder members "portsAttributes" (.object attributes) ∧
        ∀ k, (¬ attributes.Has k ∧ labels.labels.lookup k = none) ∨
          ∃ t l, LastUnder attributes k t ∧ LabelOf t l ∧ labels.labels.lookup k = some l := by
  unfold ofTree? at h
  dsimp only at h
  cases hattributes : (lastOfEach members).lookup "portsAttributes" with
  | none =>
    rw [hattributes] at h
    exact Or.inl ⟨lookup_lastOfEach_eq_none.mp hattributes, (Option.some.inj h).symm⟩
  | some t =>
    rw [hattributes] at h
    obtain ⟨ls, hls, rfl⟩ := Option.map_eq_some_iff.mp h
    unfold labels? at hls
    split at hls
    · rename_i attributes
      refine Or.inr ⟨attributes, lookup_lastOfEach.mp hattributes, fun k => ?_⟩
      rcases lookup_of_mapM hls k with ⟨hx, hy⟩ | ⟨t, l, hx, hl, hy⟩
      · exact Or.inl ⟨lookup_lastOfEach_eq_none.mp hx, hy⟩
      · exact Or.inr ⟨t, l, lookup_lastOfEach.mp hx, attributes?_eq_some_iff.mp hl, hy⟩
    · exact absurd hls nofun

/-! ## Overwritten members -/

theorem labelOf?_congr {t t' : Tree} (h : Overwritten t t') : labelOf? t = labelOf? t' := by
  cases h <;> rfl

/-- A lookup sees the values through what they are read as. -/
theorem lookup_map {α : Type} (f : Tree → α) (xs : List (String × Tree)) (k : String) :
    (xs.map (fun e => (e.1, f e.2))).lookup k = (xs.lookup k).map f := by
  induction xs with
  | nil => rfl
  | cons x xs ih =>
    obtain ⟨key, t⟩ := x
    rw [List.map_cons, List.lookup_cons, List.lookup_cons]
    by_cases hk : k = key
    · rw [hk, beq_self_eq_true]
      rfl
    · rw [beq_false_of_ne hk]
      exact ih

/-- An array counts only where it has one item at most, so that a difference within an item is seen there. -/
theorem array_congr {α : Type} {F : Tree → Option α} {f : Tree → Option α} {t t' : Tree}
    (hone : ∀ u, F (.array [u]) = f u) (hmore : ∀ u v us, F (.array (u :: v :: us)) = none)
    (h : f t = f t') (front back : List Tree) :
    F (.array (front ++ t :: back)) = F (.array (front ++ t' :: back)) := by
  cases front with
  | nil =>
    cases back with
    | nil => exact (hone t).trans (h.trans (hone t').symm)
    | cons u back => exact (hmore t u back).trans (hmore t' u back).symm
  | cons u front =>
    cases front with
    | nil => exact (hmore u t back).trans (hmore u t' back).symm
    | cons v front => exact (hmore u v _).trans (hmore u v _).symm

theorem attributes?_object (members : Members) : attributes? (.object members) =
    (((lastOfEach members).map (fun e => (e.1, labelOf? e.2))).lookup "label").getD (some "") := by
  rw [lookup_map]
  unfold attributes?
  dsimp only
  cases (lastOfEach members).lookup "label" <;> rfl

theorem attributes?_congr {t t' : Tree} (h : Overwritten t t') : attributes? t = attributes? t' := by
  rcases h.cases with ⟨members, members', rfl, rfl⟩ | ⟨front, u, u', back, rfl, rfl, hu⟩
  · rw [attributes?_object, attributes?_object, map_lastOfEach_congr labelOf?_congr h]
  · have hone : ∀ v, attributes? (.array [v]) = labelOf? v := fun _ => rfl
    exact array_congr hone (fun _ _ _ => rfl) (labelOf?_congr hu) front back

theorem labels?_object (members : Members) : labels? (.object members) =
    ((lastOfEach members).map (fun e => (e.1, attributes? e.2))).mapM (fun e => (e.1, ·) <$> e.2) := by
  rw [List.mapM_map]
  rfl

theorem labels?_congr {t t' : Tree} (h : Overwritten t t') : labels? t = labels? t' := by
  rcases h.cases with ⟨members, members', rfl, rfl⟩ | ⟨front, u, u', back, rfl, rfl, hu⟩
  · rw [labels?_object, labels?_object, map_lastOfEach_congr attributes?_congr h]
  · rfl

theorem ofTree?_object (members : Members) : ofTree? (.object members) =
    (((lastOfEach members).map (fun e => (e.1, PortLabels.mk <$> labels? e.2))).lookup "portsAttributes").getD
      (some empty) := by
  rw [lookup_map (fun t => PortLabels.mk <$> labels? t)]
  unfold ofTree?
  dsimp only
  cases (lastOfEach members).lookup "portsAttributes" <;> rfl

/-- **What is overwritten is not read**, wherever it stands. -/
theorem ofTree?_congr {t t' : Tree} (h : Overwritten t t') : ofTree? t = ofTree? t' := by
  have hlabels : ∀ {u u' : Tree}, Overwritten u u' →
      PortLabels.mk <$> labels? u = PortLabels.mk <$> labels? u' := by
    intro u u' hu
    rw [labels?_congr hu]
  rcases h.cases with ⟨members, members', rfl, rfl⟩ | ⟨front, u, u', back, rfl, rfl, hu⟩
  · rw [ofTree?_object, ofTree?_object, map_lastOfEach_congr hlabels h]
  · have hone : ∀ v, ofTree? (.array [v]) = PortLabels.mk <$> labels? v := fun _ => rfl
    exact array_congr hone (fun _ _ _ => rfl) (hlabels hu) front back

theorem ofTree?_eq_of_eqvGen {t t' : Tree} (h : Relation.EqvGen Overwritten t t') : ofTree? t = ofTree? t' := by
  induction h with
  | rel t t' h => exact ofTree?_congr h
  | refl t => rfl
  | symm t t' h ih => exact ih.symm
  | trans t u t' h h' ih ih' => exact ih.trans ih'

/-! ## Files -/

/-- A port has the label of the member that labels it, and has one just if there is such a member. -/
theorem label?_eq_some_iff (h : ofTree? (.object members) = some labels) :
    labels.label? p = some l ↔ ∃ key, Labels members key p l := by
  unfold label?
  constructor
  · intro hl
    rcases ofTree?_eq_some h with ⟨-, rfl⟩ | ⟨attributes, hunder, hkeys⟩
    · exact absurd hl nofun
    · rcases hkeys (toString p.toNat) with ⟨-, hnone⟩ | ⟨t, l', hlast, hlabel, hsome⟩
      · exact absurd (hnone.symm.trans hl) nofun
      · obtain rfl := Option.some.inj (hsome.symm.trans hl)
        exact ⟨_, hunder, Integer.numeral_toString p.toNat, hlast, hlabel⟩
  · rintro ⟨key, hunder, hnumeral, hlast, hlabel⟩
    rcases ofTree?_eq_some h with ⟨hnot, -⟩ | ⟨attributes, hunder', hkeys⟩
    · exact absurd hunder.has hnot
    · obtain rfl := Tree.object.inj (hunder.unique hunder')
      obtain rfl := String.toList_inj.mp (Integer.numeral_iff.mp hnumeral)
      rcases hkeys (toString p.toNat) with ⟨hnot, -⟩ | ⟨t', l', hlast', hlabel', hsome⟩
      · exact absurd hlast.has hnot
      · obtain rfl := hlast.unique hlast'
        obtain rfl := hlabel.unique hlabel'
        exact hsome

/-- **Where the labels come from**, in terms of the document. -/
structure LabelsOf (members : Members) (labels : PortLabels) : Prop where
  label_iff (p : Port) (l : String) : labels.label? p = some l ↔ ∃ key, Labels members key p l
  labelled_iff (p : Port) : (∃ l, labels.label? p = some l) ↔
    ∃ attributes key, LastUnder members "portsAttributes" (.object attributes) ∧
      Integer.Numeral key.toList p.toNat ∧ Members.Has attributes key
  one_port (key : String) (p q : Port) (l l' : String) :
    Labels members key p l → Labels members key q l' → p = q ∧ l = l'
  no_port (key : String) (p : Port) (l : String) :
    ((∃ c ∈ key.toList, Integer.digit? c = none) ∨ ∃ c rest, key.toList = '0' :: c :: rest) →
      ¬ Labels members key p l
  row (workspace domain : String) (ports : List SharedPort) (row : ListingRow) :
    row ∈ listingRows labels workspace domain ports →
      labels.label? row.port = some row.label ∨ (labels.label? row.port = none ∧ row.label = "")

theorem labelsOf (h : ofTree? (.object members) = some labels) : LabelsOf members labels where
  label_iff p l := label?_eq_some_iff h
  labelled_iff p := by
    simp only [label?_eq_some_iff h]
    constructor
    · rintro ⟨l, key, hunder, hnumeral, hlast, -⟩
      exact ⟨_, key, hunder, hnumeral, hlast.has⟩
    · rintro ⟨attributes, key, hunder, hnumeral, hhas⟩
      rcases ofTree?_eq_some h with ⟨hnot, -⟩ | ⟨attributes', hunder', hkeys⟩
      · exact absurd hunder.has hnot
      · obtain rfl := Tree.object.inj (hunder.unique hunder')
        rcases hkeys key with ⟨hnot, -⟩ | ⟨t, l, hlast, hlabel, -⟩
        · exact absurd hhas hnot
        · exact ⟨l, key, hunder, hnumeral, hlast, hlabel⟩
  one_port key p q l l' h h' := h.unique h'
  no_port key p l := by
    rintro hkey ⟨-, hnumeral, -, -⟩
    obtain ⟨hdigits, hzero⟩ := hnumeral.plain
    rcases hkey with ⟨c, hc, hnone⟩ | ⟨c, rest, hkey⟩
    · obtain ⟨d, hd⟩ := hdigits c hc
      exact absurd (hnone.symm.trans hd) nofun
    · exact absurd (hzero _ hkey) nofun
  row workspace domain ports row hrow := by
    obtain ⟨shared, -, rfl⟩ := List.mem_map.mp hrow
    have hrow : (ListingRow.of labels workspace domain shared).label =
      (labels.label? shared.port).getD "" := rfl
    rw [hrow]
    show labels.label? shared.port = _ ∨ labels.label? shared.port = none ∧ _
    cases labels.label? shared.port with
    | none => exact Or.inr ⟨rfl, rfl⟩
    | some l => exact Or.inl rfl

/-- **Labels come from the right key.** In a file whose document is an object, each port has the label of the
    last member under its numeral, in the last of the port attributes; and what is overwritten by a later
    member has no effect. -/
theorem ofFile_labels {bs : Bytes} (hread : read .full (Jsonc.normalize bs) = .ok (.object members))
    (hfile : ofFile bs = .ok labels) :
    LabelsOf members labels ∧
      ∀ bs' t', read .full (Jsonc.normalize bs') = .ok t' →
        Relation.EqvGen Overwritten (.object members) t' → ofFile bs' = .ok labels := by
  have htree : ofTree? (.object members) = some labels := by
    unfold ofFile at hfile
    rw [hread] at hfile
    dsimp only at hfile
    cases htree : ofTree? (.object members) with
    | none =>
      rw [htree] at hfile
      exact absurd hfile nofun
    | some labels' =>
      rw [htree] at hfile
      rw [Except.ok.inj hfile]
  refine ⟨labelsOf htree, ?_⟩
  intro bs' t' hread' heqv
  unfold ofFile
  rw [hread']
  dsimp only
  rw [← ofTree?_eq_of_eqvGen heqv, htree]

/-- The bytes of a document whose first port attributes are no object, and whose first label is none; the two
    keys of the second attributes are `80` and `\u00380`. -/
def repeated : Bytes :=
  [0x7B, 0x22, 0x70, 0x6F, 0x72, 0x74, 0x73, 0x41, 0x74, 0x74, 0x72, 0x69, 0x62, 0x75, 0x74, 0x65, 0x73,
    0x22, 0x3A, 0x6E, 0x75, 0x6C, 0x6C, 0x2C, 0x22, 0x70, 0x6F, 0x72, 0x74, 0x73, 0x41, 0x74, 0x74, 0x72,
    0x69, 0x62, 0x75, 0x74, 0x65, 0x73, 0x22, 0x3A, 0x7B, 0x22, 0x38, 0x30, 0x22, 0x3A, 0x6E, 0x75, 0x6C,
    0x6C, 0x2C, 0x22, 0x5C, 0x75, 0x30, 0x30, 0x33, 0x38, 0x30, 0x22, 0x3A, 0x7B, 0x22, 0x6C, 0x61, 0x62,
    0x65, 0x6C, 0x22, 0x3A, 0x22, 0x77, 0x65, 0x62, 0x22, 0x7D, 0x7D, 0x7D]

/-- What is of the wrong shape there is overwritten, and the label is found under the escaped key. -/
theorem ofFile_labels_repeated :
    ∃ members, read .full (Jsonc.normalize repeated) = .ok (.object members) ∧
      ofFile repeated = .ok ⟨[("80", "web")]⟩ ∧ LabelsOf members ⟨[("80", "web")]⟩ ∧
      ∃ key, Labels members key 80 "web" := by
  have hread : ∃ members, read .full (Jsonc.normalize repeated) = .ok (.object members) := ⟨_, rfl⟩
  have hfile : ofFile repeated = .ok ⟨[("80", "web")]⟩ := by rfl
  obtain ⟨members, hread⟩ := hread
  have hlabels := (ofFile_labels hread hfile).1
  exact ⟨members, hread, hfile, hlabels, (hlabels.label_iff 80 "web").mp (by rfl)⟩

end PortLabels

end SharedPorts
