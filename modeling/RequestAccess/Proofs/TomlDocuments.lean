import RequestAccess.Proofs.TomlLines
import RequestAccess.Proofs.TomlTables

/-!
# Plain documents

A plain document is read as what it says. Behind such a document, a quote after a key opens a
string, whatever follows, and what is read then has the string under the key.
-/

namespace RequestAccess

namespace Toml.Plain

/-! ## The lines of a document -/

def readAll (lines : List Line) : List Toml.Line := lines.map Line.read

namespace Table

def read (t : Table) : List Toml.Line :=
  .header false [] t.name :: readAll t.lines ++
    t.tables.flatMap fun inner => .header false [t.name] inner.1 :: readAll inner.2

end Table

def Document.read (d : Document) : List Toml.Line :=
  readAll d.lines ++ d.tables.flatMap Table.read

theorem reads_lines {lines : List Line} (h : ∀ l ∈ lines, l.Sound) (rest : List Char) :
    Reads (charsOf lines ++ rest) (readAll lines) rest := by
  induction lines with
  | nil => exact .done rest
  | cons l lines ih =>
    obtain ⟨hl, hlines⟩ := List.forall_mem_cons.mp h
    rw [charsOf, List.flatMap_cons, List.append_assoc]
    exact .line (nextLine?_chars hl _) (ih hlines)

theorem reads_inner {table : String} (ht : IsBare table) {tables : List (String × List Line)}
    (hnames : ∀ inner ∈ tables, IsBare inner.1) (hlines : ∀ inner ∈ tables, ∀ l ∈ inner.2, l.Sound)
    (rest : List Char) :
    Reads ((tables.flatMap fun inner => header [table, inner.1] ++ charsOf inner.2) ++ rest)
      (tables.flatMap fun inner => .header false [table] inner.1 :: readAll inner.2) rest := by
  induction tables with
  | nil => exact .done rest
  | cons inner tables ih =>
    obtain ⟨hname, hnames⟩ := List.forall_mem_cons.mp hnames
    obtain ⟨hinner, hlines⟩ := List.forall_mem_cons.mp hlines
    simp only [List.flatMap_cons, List.append_assoc, List.cons_append]
    exact .line (nextLine?_header_inner ht hname _)
      ((reads_lines hinner _).append (ih hnames hlines))

theorem Table.Sound.reads {t : Table} (h : t.Sound) (rest : List Char) :
    Reads (t.chars ++ rest) t.read rest := by
  simp only [Table.chars, Table.read, List.append_assoc, List.cons_append]
  exact .line (nextLine?_header h.name _)
    ((reads_lines h.lines _).append (reads_inner h.name h.innerNames h.innerLines rest))

theorem Document.Sound.reads {d : Document} (h : d.Sound) (rest : List Char) :
    Reads (d.chars ++ rest) d.read rest := by
  have htables (tables : List Table) (ht : ∀ t ∈ tables, t.Sound) :
      Reads (tables.flatMap Table.chars ++ rest) (tables.flatMap Table.read) rest := by
    induction tables with
    | nil => exact .done rest
    | cons t tables ih =>
      obtain ⟨hfirst, hrest⟩ := List.forall_mem_cons.mp ht
      rw [List.flatMap_cons, List.flatMap_cons, List.append_assoc]
      exact (hfirst.reads _).append (ih hrest)
  rw [Document.chars, Document.read, List.append_assoc]
  exact (reads_lines h.lines _).append (htables d.tables h.tables)

/-! ## Enough fuel -/

theorem length_readAll_le (lines : List Line) :
    (readAll lines).length ≤ (charsOf lines).length := by
  induction lines with
  | nil => exact Nat.le_refl 0
  | cons l lines ih =>
    have hl : 1 ≤ l.chars.length := by
      cases l <;> simp only [Line.chars, List.length_append, List.length_cons] <;> omega
    simp only [readAll, charsOf, List.map_cons, List.flatMap_cons, List.length_cons,
      List.length_append] at ih ⊢
    omega

theorem one_le_header (path : List String) : 1 ≤ (header path).length := by
  simp only [header, List.length_append, List.length_cons]
  omega

theorem Table.length_read_le (t : Table) : t.read.length ≤ t.chars.length := by
  have hinner (tables : List (String × List Line)) :
      (tables.flatMap fun inner => .header false [t.name] inner.1 :: readAll inner.2).length ≤
        (tables.flatMap fun inner => header [t.name, inner.1] ++ charsOf inner.2).length := by
    induction tables with
    | nil => exact Nat.le_refl 0
    | cons inner tables ih =>
      have hheader := one_le_header [t.name, inner.1]
      have hlines := length_readAll_le inner.2
      simp only [List.flatMap_cons, List.length_append, List.length_cons] at ih ⊢
      omega
  have hheader := one_le_header [t.name]
  have hlines := length_readAll_le t.lines
  have htables := hinner t.tables
  simp only [Table.read, Table.chars, List.length_append, List.length_cons] at htables ⊢
  omega

theorem Document.length_read_le (d : Document) : d.read.length ≤ d.chars.length := by
  have htables (tables : List Table) :
      (tables.flatMap Table.read).length ≤ (tables.flatMap Table.chars).length := by
    induction tables with
    | nil => exact Nat.le_refl 0
    | cons t tables ih =>
      have ht := t.length_read_le
      simp only [List.flatMap_cons, List.length_append] at ih ⊢
      omega
  have hlines := length_readAll_le d.lines
  have hrest := htables d.tables
  simp only [Document.read, Document.chars, List.length_append] at hrest ⊢
  omega

/-! ## No mark in front -/

theorem IsBare.head {key : String} (h : IsBare key) (s : List Char) :
    (key.toList ++ s).head? ≠ some '\ufeff' := by
  obtain ⟨k, ks, hks⟩ := List.exists_cons_of_ne_nil h.1
  have hk := List.all_eq_true.mp h.2 k (hks ▸ List.mem_cons_self)
  rw [hks, List.cons_append, List.head?_cons]
  intro heq
  cases Option.some.inj heq
  exact absurd hk (by decide)

theorem Document.Sound.head {d : Document} (h : d.Sound) {rest : List Char}
    (hrest : rest.head? ≠ some '\ufeff') : (d.chars ++ rest).head? ≠ some '\ufeff' := by
  have hheader (path : List String) (s : List Char) : (header path ++ s).head? = some '[' := rfl
  rw [Document.chars]
  cases hlines : d.lines with
  | cons l lines =>
    have hl := h.lines l (hlines ▸ List.mem_cons_self)
    cases l with
    | blank | comment => exact fun heq => by cases heq
    | pair key value =>
      simp only [charsOf, List.flatMap_cons, Line.chars, List.append_assoc]
      exact IsBare.head hl.1 _
  | nil =>
    cases d.tables with
    | nil => exact hrest
    | cons t tables =>
      simp only [charsOf, List.flatMap_nil, List.flatMap_cons, List.nil_append, Table.chars,
        List.append_assoc, hheader]
      exact fun heq => by cases heq

theorem skipMark_of_head {s : List Char} (h : s.head? ≠ some '\ufeff') : skipMark s = s := by
  unfold skipMark
  split
  · exact absurd rfl h
  · rfl

/-! ## Sections -/

def pairsOf (lines : List Line) : List Pair := (ofMembers (entries lines)).map pairOf

def Table.sections (t : Table) : List Section :=
  { repeated := false, path := [], key := t.name, pairs := pairsOf t.lines } ::
    t.tables.map fun inner =>
      { repeated := false, path := [t.name], key := inner.1, pairs := pairsOf inner.2 }

theorem group_readAll (lines : List Line) (more : List Toml.Line) :
    group (readAll lines ++ more) = (pairsOf lines ++ (group more).1, (group more).2) := by
  induction lines with
  | nil => rfl
  | cons l lines ih =>
    rw [readAll, List.map_cons, List.cons_append]
    cases l <;> simp only [Line.read, group] <;> rw [← readAll, ih] <;> rfl

theorem group_table (t : Table) {more : List Toml.Line} (h : (group more).1 = []) :
    group (t.read ++ more) = ([], t.sections ++ (group more).2) := by
  have hinner (tables : List (String × List Line)) :
      group ((tables.flatMap fun inner => .header false [t.name] inner.1 :: readAll inner.2) ++
          more) =
        ([], (tables.map fun inner => Section.mk false [t.name] inner.1 (pairsOf inner.2)) ++
          (group more).2) := by
    induction tables with
    | nil => exact Prod.ext h rfl
    | cons inner tables ih =>
      rw [List.flatMap_cons, List.append_assoc, List.cons_append, group, group_readAll, ih,
        List.append_nil]
      rfl
  rw [Table.read, List.append_assoc, List.cons_append, group, group_readAll, hinner,
    List.append_nil]
  rfl

theorem group_document (d : Document) {more : List Toml.Line} (h : (group more).1 = []) :
    group (d.read ++ more) =
      (pairsOf d.lines, d.tables.flatMap Table.sections ++ (group more).2) := by
  have htables (tables : List Table) : group (tables.flatMap Table.read ++ more) =
      ([], tables.flatMap Table.sections ++ (group more).2) := by
    induction tables with
    | nil => exact Prod.ext h rfl
    | cons t tables ih =>
      rw [List.flatMap_cons, List.append_assoc, group_table t (by rw [ih]), ih, List.flatMap_cons,
        List.append_assoc]
  rw [Document.read, List.append_assoc, group_readAll, htables, List.append_nil]

/-! ## Trees -/

theorem names_ofMembers (ms : List (String × Json)) :
    (ofMembers ms).map (·.1) = ms.map (·.1) := by
  rw [ofMembers_eq, List.map_map]
  rfl

theorem Table.Sound.added {t : Table} (h : t.Sound) {ms : Members}
    (hnew : Toml.find? t.name ms = none) :
    t.sections.foldlM addSection ms =
      some (ms ++ [(t.name, ofTree (.object t.members))]) := by
  have hnames : ((entries t.lines).map (·.1)).Nodup := by
    have hnodup := h.nodup
    rw [Table.members, List.map_append] at hnodup
    exact (List.nodup_append.mp hnodup).1
  have hpairs :
      addPairs .dotted .header [] (pairsOf t.lines) = some (ofMembers (entries t.lines)) :=
    addPairs_new (by rwa [List.nil_append, names_ofMembers])
  have hadd : addSection ms ⟨false, [], t.name, pairsOf t.lines⟩ =
      some (ms ++ [(t.name, .table .header (ofMembers (entries t.lines)))]) := by
    simp [addSection, within, Section.addTo, hnew, Section.table?, hpairs]
  have hinner := @addSections_new _ _ (isHole_table hnew) (ofMembers (entries t.lines))
    (t.tables.map fun inner => (inner.1, ofMembers (entries inner.2)))
    (by
      have hnodup := h.nodup
      rw [Table.members, List.map_append, List.map_map] at hnodup
      rw [names_ofMembers, List.map_map]
      exact hnodup)
    (by
      intro s hs
      obtain ⟨inner, hmem, rfl⟩ := List.mem_map.mp hs
      rw [names_ofMembers]
      exact h.innerNodup inner hmem)
  rw [List.map_map, List.map_map] at hinner
  rw [Table.sections, List.foldlM_cons, hadd]
  refine hinner.trans ?_
  rw [Table.members, ofTree, ofMembers_eq (_ ++ _), List.map_append, ← ofMembers_eq, List.map_map]
  rfl

theorem Document.Sound.added {d : Document} (h : d.Sound) :
    document? (pairsOf d.lines) (d.tables.flatMap Table.sections) = some (ofTree d.tree) := by
  have htables {ms : Members} (tables : List Table) (ht : ∀ t ∈ tables, t.Sound)
      (hnodup : (ms.map (·.1) ++ tables.map Table.name).Nodup) :
      (tables.flatMap Table.sections).foldlM addSection ms =
        some (ms ++ tables.map fun t => (t.name, ofTree (.object t.members))) := by
    induction tables generalizing ms with
    | nil => exact congrArg some (List.append_nil ms).symm
    | cons t tables ih =>
      obtain ⟨hfirst, hrest⟩ := List.forall_mem_cons.mp ht
      have hnew : Toml.find? t.name ms = none := by
        rw [find?_eq_none]
        rw [List.map_cons, List.nodup_append] at hnodup
        exact fun hm => hnodup.2.2 _ hm _ List.mem_cons_self rfl
      have hadded :=
        @ih (ms ++ [(t.name, ofTree (.object t.members))]) hrest (by simpa using hnodup)
      rw [List.append_assoc] at hadded
      rw [List.flatMap_cons, List.foldlM_append, hfirst.added hnew]
      exact hadded
  have hnodup := h.nodup
  rw [Document.members, List.map_append, List.map_map] at hnodup
  have hpairs :
      addPairs .dotted .header [] (pairsOf d.lines) = some (ofMembers (entries d.lines)) :=
    addPairs_new (by rw [List.nil_append, names_ofMembers]; exact (List.nodup_append.mp hnodup).1)
  have hadded := @htables (ofMembers (entries d.lines)) d.tables h.tables
    (by rw [names_ofMembers]; exact hnodup)
  have htree : ofTree d.tree = .table .header (ofMembers (entries d.lines) ++
      d.tables.map fun t => (t.name, ofTree (.object t.members))) := by
    rw [Document.tree, Document.members, ofTree, ofMembers_eq (_ ++ _), List.map_append,
      ← ofMembers_eq, List.map_map]
    rfl
  rw [document?, hpairs]
  simp only [hadded, Option.map_some, htree]

theorem parse?_chars {d : Document} (h : d.Sound) :
    parse? (String.ofList d.chars) = some (ofTree d.tree) := by
  have hreads := h.reads []
  have hlength := d.length_read_le
  obtain ⟨fuel, hfuel⟩ := Nat.exists_eq_add_of_le' hlength
  have hmark := skipMark_of_head (@Document.Sound.head d h [] nofun)
  have hgroup := @group_document d [] rfl
  rw [List.append_nil] at hreads hmark hgroup
  have hlines : readLines (d.chars.length + 1) d.chars = some d.read := by
    rw [hfuel, Nat.add_right_comm, hreads.readLines_eq, readLines]
    simp [skipBlank]
  rw [parse?, String.toList_ofList, parseChars?, hmark]
  simp only [hlines, hgroup, group, List.append_nil]
  exact h.added

/-! ## A quote behind a key -/

theorem readLine_quote {key : String} (hk : IsBare key) {rest s : List Char}
    (hrest : rest.head? ≠ some '"') {l : Toml.Line}
    (h : nextLine? (key.toList ++ ' ' :: '=' :: ' ' :: '"' :: rest) = some (l, s)) :
    ∃ cs more, readBasic rest = some (cs, more) ∧
      l = .pair { path := [], key, value := .text (String.ofList cs) } := by
  have hstring : readString ('"' :: rest) = asString (readBasic rest) := by
    cases rest with
    | nil => rfl
    | cons c rest => exact readString_single (fun hc => hrest (congrArg some hc)) rest
  have hskip : skipBlank (' ' :: '"' :: rest) = '"' :: rest := rfl
  have hvalue (fuel room : Nat) : readValue (fuel + 1) room ('"' :: rest) =
      (asString (readBasic rest)).map fun p => (.text p.1, p.2) := by
    simp only [readValue, hstring]
  rw [nextLine?_key hk] at h
  simp only [readPairLine, readKey_equals hk, hskip, hvalue] at h
  cases hread : readBasic rest with
  | none =>
    rw [hread] at h
    cases h
  | some p =>
    rw [hread] at h
    obtain ⟨t, -, hline⟩ := Option.map_eq_some_iff.mp h
    cases hline
    exact ⟨p.1, p.2, rfl, rfl⟩

/-- The text of the first pair under the last header stays, whatever comes behind it. -/
theorem textAt_document (d : Document) {table key t : String} {more : List Toml.Line} {v : Toml}
    (h : document?
      (group (d.read ++ .header false [] table :: .pair ⟨[], key, .text t⟩ :: more)).1
      (group (d.read ++ .header false [] table :: .pair ⟨[], key, .text t⟩ :: more)).2 = some v) :
    textAt [table, key] v = some t := by
  rw [group_document d rfl, group, group] at h
  unfold document? at h
  split at h
  · obtain ⟨ms, hms, rfl⟩ := Option.map_eq_some_iff.mp h
    rw [List.foldlM_append] at hms
    obtain ⟨ms₁, -, hms⟩ := Option.bind_eq_some_iff.mp hms
    obtain ⟨ms₂, hsection, hrest⟩ := Option.bind_eq_some_iff.mp hms
    exact addSections_keep hrest _ _ (textAt_addSection rfl rfl rfl hsection)
  · cases h

theorem string_of_parse? {d : Document} {table key : String} {rest : List Char} {v : Toml}
    (hd : d.Sound) (ht : IsBare table) (hk : IsBare key) (hrest : rest.head? ≠ some '"')
    (h : parse? (String.ofList (d.chars ++ header [table] ++ key.toList ++ [' ', '=', ' ', '"'] ++
      rest)) = some v) :
    ∃ written cs more, rest = written ++ '"' :: more ∧ SpellsString written cs ∧
      textAt [table, key] v = some (String.ofList cs) := by
  let line := key.toList ++ ' ' :: '=' :: ' ' :: '"' :: rest
  have htext : d.chars ++ header [table] ++ key.toList ++ [' ', '=', ' ', '"'] ++ rest =
      d.chars ++ (header [table] ++ line) := by simp [line]
  have hfront : Reads (d.chars ++ (header [table] ++ line)) (d.read ++ [.header false [] table])
      line := (hd.reads _).append (.line (nextLine?_header ht _) (.done _))
  have hmark : skipMark (d.chars ++ (header [table] ++ line)) = _ :=
    skipMark_of_head (hd.head fun heq => by cases heq)
  -- One step of fuel is left for the line of the key.
  obtain ⟨fuel, hfuel⟩ : ∃ fuel, (d.chars ++ (header [table] ++ line)).length + 1 =
      fuel + 1 + (d.read ++ [Toml.Line.header false [] table]).length := by
    have hread := d.length_read_le
    have hheader := one_le_header [table]
    refine ⟨(d.chars ++ (header [table] ++ line)).length - (d.read.length + 1), ?_⟩
    simp only [List.length_append, List.length_singleton]
    omega
  rw [parse?, String.toList_ofList, htext, parseChars?, hmark, hfuel, hfront.readLines_eq] at h
  split at h
  · next lines hlines =>
    obtain ⟨more, hmore, rfl⟩ := Option.map_eq_some_iff.mp hlines
    have hne : skipBlank line ≠ [] := by
      rw [show skipBlank line = line from hk.skipBlank _]
      simp [line]
    rw [readLines_of_more hne] at hmore
    obtain ⟨p, hline, hrest'⟩ := Option.bind_eq_some_iff.mp hmore
    obtain ⟨lines, -, rfl⟩ := Option.map_eq_some_iff.mp hrest'
    obtain ⟨cs, after, hread, hpair⟩ := readLine_quote hk hrest hline
    obtain ⟨written, hwritten, hspells⟩ := spells_of_readBasic hread
    refine ⟨written, cs, after, hwritten, hspells, ?_⟩
    rw [hpair, List.append_assoc] at h
    exact textAt_document d h
  · cases h

end Toml.Plain

end RequestAccess
