/-
The mode that a path leads to.

A path ends with its last component, which has a directory in front of it, empty or ended by a
slash, and nothing behind it but slashes with or without a dot (`Path.lastIs_iff`).  The segments
that count are told from the others one by one, and so what is said of the last one holds whatever
dots and slashes there are in the directory.  The path has an extension just where the component
has a stem and a dot in front of it (`Path.extension?_eq_some_iff`), and there the look-up by the
path is the look-up by the extension (`Registry.path_lookup`).
-/
import Highlighter.Proofs.Registry.Extension

namespace Highlighter
namespace Text

/-- Letters apart, texts that are the same without regard to case have the same characters. -/
theorem not_mem_of_sameIgnoringCase {d : Char} (hlower : d.isLower = false)
    (hself : d.toLower = d) {s t : Text} (h : sameIgnoringCase s t = true) (ht : d ∉ t) :
    d ∉ s := by
  intro hs
  have hmap : d ∈ t.map Char.toLower := by
    rw [← sameIgnoringCase_iff.mp h, ← hself]
    exact List.mem_map_of_mem hs
  obtain ⟨c, hc, hcd⟩ := List.mem_map.mp hmap
  rw [eq_of_toLower hlower hcd] at hc
  exact ht hc

end Text

namespace Path

/-- Whether a text can be written in front of a file name. -/
def IsDirectory (d : Text) : Prop := ∀ c ∈ d.getLast?, c = '/'

/-- What may follow the last component of a path: slashes, each of them with or without a dot
behind it. -/
inductive IsTrail : Text → Prop
  | nil : IsTrail []
  | slash {t : Text} (h : IsTrail t) : IsTrail ('/' :: t)
  | slashDot {t : Text} (h : IsTrail t) : IsTrail ('/' :: '.' :: t)

/-- Whether a text between slashes counts as a component of a path. -/
structure IsComponent (name : Text) : Prop where
  ne_nil : name ≠ []
  ne_dot : name ≠ ['.']
  no_slash : '/' ∉ name

/-- Whether a text is the last component of a path. -/
def LastIs (path name : Text) : Prop :=
  IsComponent name ∧ ∃ d t, IsDirectory d ∧ IsTrail t ∧ path = d ++ name ++ t

theorem IsDirectory.eq_nil_or_concat {d : Text} (h : IsDirectory d) :
    d = [] ∨ ∃ front, d = front ++ ['/'] := by
  rcases List.eq_nil_or_concat d with rfl | ⟨front, c, rfl⟩
  · exact Or.inl rfl
  · have hc : c = '/' := h c (by simp)
    exact Or.inr ⟨front, by rw [hc, List.concat_eq_append]⟩

theorem IsTrail.append {t u : Text} (h : IsTrail t) (hu : IsTrail u) : IsTrail (t ++ u) := by
  induction h with
  | nil => exact hu
  | slash _ ih => exact .slash ih
  | slashDot _ ih => exact .slashDot ih

/-- Every path is a directory and what stands behind the last slash. -/
theorem exists_directory (path : Text) :
    ∃ d last, IsDirectory d ∧ '/' ∉ last ∧ path = d ++ last := by
  cases hcut : Text.cutLast? '/' path with
  | none =>
    exact ⟨[], path, fun c hc => absurd hc (by simp), Text.cutLast?_eq_none_iff.mp hcut, rfl⟩
  | some parts =>
    obtain ⟨rfl, hslash⟩ := Text.cutLast?_eq_some_iff.mp hcut
    exact ⟨parts.1 ++ ['/'], parts.2, fun c hc => by simpa [eq_comm] using hc, hslash, by simp⟩

theorem segments_append_slash (path rest : Text) :
    segments (path ++ '/' :: rest) = segments path ++ segments rest := by
  rw [segments, Text.fields_append_cons, List.filter_append]
  rfl

theorem segments_append_directory {d : Text} (h : IsDirectory d) (rest : Text) :
    segments (d ++ rest) = segments d ++ segments rest := by
  rcases h.eq_nil_or_concat with rfl | ⟨front, rfl⟩
  · rfl
  · have hempty : segments [] = [] := by decide
    rw [List.append_assoc, List.singleton_append, segments_append_slash, segments_append_slash,
      hempty, List.append_nil]

/-- A trail has no segment that counts. -/
theorem segments_append_trail {t : Text} (h : IsTrail t) (path : Text) :
    segments (path ++ t) = segments path := by
  induction h generalizing path with
  | nil => rw [List.append_nil]
  | @slash t _ ih =>
    have hslash : segments (path ++ ['/']) = segments path := by
      rw [segments_append_slash]
      exact List.append_nil _
    rw [← List.singleton_append, ← List.append_assoc, ih, hslash]
  | @slashDot t _ ih =>
    have hdot : segments (path ++ ['/', '.']) = segments path := by
      rw [segments_append_slash]
      exact List.append_nil _
    have happ : path ++ '/' :: '.' :: t = path ++ ['/', '.'] ++ t := by simp
    rw [happ, ih, hdot]

theorem IsComponent.segments {name : Text} (h : IsComponent name) : segments name = [name] := by
  rw [Path.segments, Text.fields_of_not_mem h.no_slash]
  simp [h.ne_nil, h.ne_dot]

theorem LastIs.getLast?_segments {path name : Text} (h : LastIs path name) :
    (segments path).getLast? = some name := by
  obtain ⟨hname, d, t, hd, ht, rfl⟩ := h
  rw [segments_append_trail ht, segments_append_directory hd, hname.segments]
  exact List.getLast?_concat

theorem lastIs_of_getLast? {path name : Text} (h : (segments path).getLast? = some name) :
    LastIs path name := by
  induction hlength : path.length using Nat.strongRecOn generalizing path with
  | ind n ih =>
    obtain ⟨d, last, hd, hslash, rfl⟩ := exists_directory path
    rw [segments_append_directory hd] at h
    by_cases hlast : IsComponent last
    · rw [hlast.segments, List.getLast?_concat] at h
      obtain rfl := Option.some.inj h
      exact ⟨hlast, d, [], hd, .nil, (List.append_nil _).symm⟩
    · -- Nothing that counts stands behind the last slash, and the path without it is shorter.
      have htrail : last = [] ∨ last = ['.'] := by
        by_contra hne
        exact hlast ⟨fun hnil => hne (.inl hnil), fun hdot => hne (.inr hdot), hslash⟩
      have hempty : segments last = [] := by
        rcases htrail with rfl | rfl <;> decide
      rw [hempty, List.append_nil] at h
      rcases hd.eq_nil_or_concat with rfl | ⟨front, rfl⟩
      · have hnone : (segments []).getLast? = none := by decide
        rw [hnone] at h
        cases h
      · rw [segments_append_trail (.slash .nil)] at h
        obtain ⟨hname, d, t, hd', ht, rfl⟩ := ih front.length (by simp at hlength; omega) h rfl
        refine ⟨hname, d, t ++ '/' :: last, hd', ht.append ?_, by simp⟩
        rcases htrail with rfl | rfl
        · exact .slash .nil
        · exact .slashDot .nil

/-- The last of the segments that count is the last component of a path. -/
theorem lastIs_iff {path name : Text} :
    LastIs path name ↔ (segments path).getLast? = some name :=
  ⟨LastIs.getLast?_segments, lastIs_of_getLast?⟩

theorem nameExtension?_eq_some_iff {name e : Text} :
    nameExtension? name = some e ↔ ∃ stem, stem ≠ [] ∧ '.' ∉ e ∧ name = stem ++ '.' :: e := by
  rw [nameExtension?, Option.map_eq_some_iff]
  constructor
  · rintro ⟨⟨stem, e⟩, hcut, rfl⟩
    obtain ⟨hcut, hstem⟩ := Option.filter_eq_some_iff.mp hcut
    obtain ⟨hname, hdot⟩ := Text.cutLast?_eq_some_iff.mp hcut
    exact ⟨stem, by simpa using hstem, hdot, hname⟩
  · rintro ⟨stem, hstem, hdot, hname⟩
    refine ⟨(stem, e), Option.filter_eq_some_iff.mpr ⟨?_, by simpa using hstem⟩, rfl⟩
    exact Text.cutLast?_eq_some_iff.mpr ⟨hname, hdot⟩

/-- The extension of a path is what stands behind the last dot of its last component, where this
has a stem and is not the parent directory. -/
theorem extension?_eq_some_iff {path e : Text} :
    extension? path = some e ↔ ∃ name stem, LastIs path name ∧ name ≠ ['.', '.'] ∧
      stem ≠ [] ∧ '.' ∉ e ∧ name = stem ++ '.' :: e := by
  rw [extension?, Option.bind_eq_some_iff]
  constructor
  · rintro ⟨name, hfile, hext⟩
    obtain ⟨hlast, hparent⟩ := Option.filter_eq_some_iff.mp hfile
    obtain ⟨stem, hstem, hdot, hname⟩ := nameExtension?_eq_some_iff.mp hext
    exact ⟨name, stem, lastIs_iff.mpr hlast, by simpa using hparent, hstem, hdot, hname⟩
  · rintro ⟨name, stem, hlast, hparent, hstem, hdot, hname⟩
    have hfile : fileName? path = some name :=
      Option.filter_eq_some_iff.mpr ⟨lastIs_iff.mp hlast, by simpa using hparent⟩
    exact ⟨name, hfile, nameExtension?_eq_some_iff.mpr ⟨stem, hstem, hdot, hname⟩⟩

end Path

namespace Descriptor

theorem hasExtension_congr (d : Descriptor) {e e' : Text}
    (h : Text.sameIgnoringCase e e' = true) : d.hasExtension e = d.hasExtension e' := by
  have hsame : ∀ own, Text.sameIgnoringCase own e = Text.sameIgnoringCase own e' := by
    intro own
    rw [Text.sameIgnoringCase, Text.sameIgnoringCase, Text.sameIgnoringCase_iff.mp h]
  rw [hasExtension, hasExtension, funext hsame]

end Descriptor

namespace Registry

theorem bareExtension_of_not_mem {e : Text} (h : '.' ∉ e) : bareExtension e = e :=
  bareExtension_of_head? fun hhead => h (List.mem_of_head? hhead)

/-- An extension without a dot is found in whatever case it is written. -/
theorem byExtension?_congr (r : Registry) {e e' : Text} (hdot : '.' ∉ e)
    (h : Text.sameIgnoringCase e' e = true) : r.byExtension? e' = r.byExtension? e := by
  have hdot' : '.' ∉ e' := Text.not_mem_of_sameIgnoringCase (by decide) (by decide) h hdot
  rw [byExtension?, byExtension?, bareExtension_of_not_mem hdot, bareExtension_of_not_mem hdot',
    funext fun d : Descriptor => d.hasExtension_congr h]

theorem byExtension?_dot_cons (r : Registry) {e : Text} (hdot : '.' ∉ e) :
    r.byExtension? ('.' :: e) = r.byExtension? e := by
  rw [byExtension?, byExtension?, bareExtension_of_not_mem hdot]
  rfl

theorem forPath?_append_trail (r : Registry) (path : Text) {t : Text} (h : Path.IsTrail t) :
    r.forPath? (path ++ t) = r.forPath? path := by
  rw [forPath?, forPath?, Path.extension?, Path.extension?, Path.fileName?, Path.fileName?,
    Path.segments_append_trail h]

/-- Where a name has a stem and an extension, a path to it is looked up by the extension. -/
theorem forPath?_of_stem (r : Registry) {d stem e : Text} (hd : Path.IsDirectory d)
    (hstem : stem ≠ []) (hslash : '/' ∉ stem) (he : e ≠ []) (hslash' : '/' ∉ e)
    (hdot : '.' ∉ e) : r.forPath? (d ++ stem ++ '.' :: e) = r.byExtension? e := by
  have hlength : 3 ≤ (stem ++ '.' :: e).length := by
    have hpos := List.length_pos_iff.mpr hstem
    have hpos' := List.length_pos_iff.mpr he
    rw [List.length_append, List.length_cons]
    omega
  have hname : Path.IsComponent (stem ++ '.' :: e) := by
    refine ⟨by simp, fun h => ?_, by simp [hslash, hslash']⟩
    rw [h] at hlength
    exact absurd hlength (by decide)
  have hparent : stem ++ '.' :: e ≠ ['.', '.'] := by
    intro h
    rw [h] at hlength
    exact absurd hlength (by decide)
  have hext : Path.extension? (d ++ stem ++ '.' :: e) = some e :=
    Path.extension?_eq_some_iff.mpr ⟨stem ++ '.' :: e, stem,
      ⟨hname, d, [], hd, .nil, by simp⟩, hparent, hstem, hdot, rfl⟩
  rw [forPath?, hext, Option.bind_some]

/-- A path to a name without a dot, or with none but the first character, has no extension. -/
theorem forPath?_eq_none (r : Registry) {path : Text}
    (h : ∀ name, Path.LastIs path name →
      '.' ∉ name ∨ (∃ rest, name = '.' :: rest ∧ '.' ∉ rest) ∨ name = ['.', '.']) :
    r.forPath? path = none := by
  have hext : Path.extension? path = none := by
    refine Option.eq_none_iff_forall_ne_some.mpr fun e he => ?_
    obtain ⟨name, stem, hlast, hparent, hstem, -, rfl⟩ := Path.extension?_eq_some_iff.mp he
    have hmem : ∀ front : Text, '.' ∈ front ++ '.' :: e := fun front =>
      List.mem_append_right front List.mem_cons_self
    rcases h _ hlast with hnone | ⟨rest, hname, hrest⟩ | hdots
    · exact hnone (hmem stem)
    · obtain ⟨c, front, rfl⟩ := List.exists_cons_of_ne_nil hstem
      obtain ⟨-, rfl⟩ := List.cons.inj hname
      exact hrest (hmem front)
    · exact hparent hdots
  rw [forPath?, hext, Option.bind_none]

/-- A path that ends with a name is looked up by the extension of the name, with or without a dot
in front and in whatever case it is written, and slashes and dots behind the name make no
difference.  A path without a last component, or with one that has no dot, has none but the first
character or is the parent directory, leads to no mode. -/
theorem path_lookup (r : Registry) :
    (∀ d stem e, Path.IsDirectory d → stem ≠ [] → '/' ∉ stem → e ≠ [] → '/' ∉ e → '.' ∉ e →
      r.forPath? (d ++ stem ++ '.' :: e) = r.byExtension? e ∧
      r.byExtension? ('.' :: e) = r.byExtension? e ∧
      ∀ e', Text.sameIgnoringCase e' e = true →
        r.forPath? (d ++ stem ++ '.' :: e') = r.byExtension? e ∧
        r.byExtension? e' = r.byExtension? e ∧ r.byExtension? ('.' :: e') = r.byExtension? e) ∧
    (∀ path t, Path.IsTrail t → r.forPath? (path ++ t) = r.forPath? path) ∧
    ∀ path, (∀ name, Path.LastIs path name →
      '.' ∉ name ∨ (∃ rest, name = '.' :: rest ∧ '.' ∉ rest) ∨ name = ['.', '.']) →
      r.forPath? path = none := by
  refine ⟨fun d stem e hd hstem hslash he hslash' hdot => ?_,
    fun path t ht => r.forPath?_append_trail path ht, fun path h => r.forPath?_eq_none h⟩
  refine ⟨r.forPath?_of_stem hd hstem hslash he hslash' hdot, r.byExtension?_dot_cons hdot, ?_⟩
  intro e' hsame
  have hcongr := r.byExtension?_congr hdot hsame
  have hdot' : '.' ∉ e' := Text.not_mem_of_sameIgnoringCase (by decide) (by decide) hsame hdot
  have hslash'' : '/' ∉ e' :=
    Text.not_mem_of_sameIgnoringCase (by decide) (by decide) hsame hslash'
  have he' : e' ≠ [] := by
    rintro rfl
    exact he (List.map_eq_nil_iff.mp (Text.sameIgnoringCase_iff.mp hsame).symm)
  rw [r.forPath?_of_stem hd hstem hslash he' hslash'' hdot', r.byExtension?_dot_cons hdot']
  exact ⟨hcongr, hcongr, hcongr⟩

/-- A hidden file in a directory with a dot in its name, in capital letters and with a trail, and
the directory around another one. -/
theorem path_lookup_hidden :
    let r : Registry := ⟨[.grammar]⟩
    r.forPath? ("a.b/./".toList ++ ".x".toList ++ '.' :: "GF".toList ++ "/.//".toList) =
        r.byExtension? "gf".toList ∧
      r.byExtension? "gf".toList = some .grammar ∧ r.forPath? "a.gf/..".toList = none := by
  intro r
  obtain ⟨hfound, htrail, hnone⟩ := r.path_lookup
  have hhidden := hfound "a.b/./".toList ".x".toList "gf".toList (by simp [Path.IsDirectory])
    (by decide) (by decide) (by decide) (by decide) (by decide)
  refine ⟨?_, by decide, hnone "a.gf/..".toList fun name hname => ?_⟩
  · have ht : Path.IsTrail "/.//".toList := .slashDot (.slash (.slash .nil))
    rw [htrail _ _ ht]
    exact (hhidden.2.2 "GF".toList (by decide)).1
  · have hlast : (Path.segments "a.gf/..".toList).getLast? = some ['.', '.'] := by decide
    rw [Path.lastIs_iff.mp hname] at hlast
    exact .inr (.inr (Option.some.inj hlast))

end Registry
end Highlighter
