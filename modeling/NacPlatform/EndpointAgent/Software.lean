import NacPlatform.Framework.Lines
import NacPlatform.Framework.Multiplicity

namespace NacPlatform.EndpointAgent

structure InstalledSoftware where
  name : String
  version : String
  deriving DecidableEq, Repr

/-- `str::strip_prefix`. -/
def stripPrefix (pat : String) (line : List Char) : Option (List Char) :=
  if pat.toList.isPrefixOf line then some (line.drop pat.toList.length) else none

/-- What is carried from line to line. -/
structure DpkgScan where
  name : String
  version : String
  installed : Bool
  result : List InstalledSoftware

def DpkgScan.line (s : DpkgScan) (line : List Char) : DpkgScan :=
  match stripPrefix "Package: " line with
  | some v => { s with name := trim (String.ofList v), version := "", installed := false }
  | none =>
    match stripPrefix "Version: " line with
    | some v => { s with version := trim (String.ofList v) }
    | none =>
      match stripPrefix "Status: " line with
      | some v => { s with installed := textContains (String.ofList v) "install ok installed" }
      | none =>
        -- nothing is reset here, so the next blank line lists the package again
        if line.isEmpty && s.installed && s.name != "" then
          { s with result := s.result++[⟨s.name,s.version⟩] }
        else s

def parseDpkgStatus (content : String) : List InstalledSoftware :=
  ((lines content).foldl DpkgScan.line ⟨"","",false,[]⟩).result

/-! The file as a list of stanzas. -/

/-- The value of a field: one line with no blanks around it. -/
structure FieldValue where
  text : String
  oneLine : '\n' ∉ text.toList
  trimmed : trim text=text

/-- A line of any other field, or one that continues a field. -/
structure OtherLine where
  text : List Char
  oneLine : '\n' ∉ text
  shown : text≠[] ∧ text≠['\r']
  other : ∀ field ∈ ["Package: ","Version: ","Status: "], ¬field.toList <+: text

inductive StanzaLine where
  | version (v : FieldValue)
  | status (v : FieldValue)
  | other (l : OtherLine)

/-- The field with the name of the package comes first, the others in any order. -/
structure Stanza where
  package : FieldValue
  named : package.text≠""
  fields : List StanzaLine

namespace StanzaLine

def text : StanzaLine → List Char
  | .version v => "Version: ".toList++v.text.toList
  | .status v => "Status: ".toList++v.text.toList
  | .other l => l.text

def version? : StanzaLine → Option String
  | .version v => some v.text
  | _ => none

def installed? : StanzaLine → Option Bool
  | .status v => some (textContains v.text "install ok installed")
  | _ => none

end StanzaLine

namespace Stanza

def version (s : Stanza) : String := ((s.fields.filterMap StanzaLine.version?).getLast?).getD ""

def installed (s : Stanza) : Bool :=
  ((s.fields.filterMap StanzaLine.installed?).getLast?).getD false

def software (s : Stanza) : InstalledSoftware := ⟨s.package.text,s.version⟩

def lines (s : Stanza) : List (List Char) :=
  ("Package: ".toList++s.package.text.toList)::s.fields.map StanzaLine.text

end Stanza

/-- Stanzas with the number of blank lines behind each: at least one, but behind the last. -/
structure DpkgStatus where
  blocks : List (Stanza × Nat)
  separated : ∀ b ∈ blocks.dropLast, 1 ≤ b.2

namespace DpkgStatus

def lines (file : DpkgStatus) : List (List Char) :=
  file.blocks.flatMap fun b => b.1.lines++List.replicate b.2 []

def text (file : DpkgStatus) : String := String.ofList (unlines file.lines)

/-- The installed packages, with the number of blank lines behind each. -/
def installed (file : DpkgStatus) : List (InstalledSoftware × Nat) :=
  (file.blocks.filter (·.1.installed)).map fun b => (b.1.software,b.2)

end DpkgStatus

theorem stripPrefix_append (pat : String) (v : List Char) :
    stripPrefix pat (pat.toList++v)=some v := by
  rw [stripPrefix,if_pos (List.isPrefixOf_iff_prefix.mpr (List.prefix_append _ _)),
    List.drop_left]

theorem stripPrefix_eq_none {pat : String} {line : List Char} (h : ¬pat.toList <+: line) :
    stripPrefix pat line=none :=
  if_neg fun e => h (List.isPrefixOf_iff_prefix.mp e)

/-- A field with another name. -/
theorem stripPrefix_other (pat name : String)
    (h : ¬pat.toList <+: name.toList ∧ ¬name.toList <+: pat.toList) (v : List Char) :
    stripPrefix pat (name.toList++v)=none := by
  apply stripPrefix_eq_none
  intro e
  rcases List.prefix_or_prefix_of_prefix e (List.prefix_append name.toList v) with hp|hp
  · exact h.1 hp
  · exact h.2 hp

/-- A field is read without a carriage return that its value does not end in. -/
theorem dropReturn_field (name : String) (hname : name.toList.getLast?≠some '\r')
    (v : FieldValue) :
    dropReturn (name.toList++v.text.toList)=name.toList++v.text.toList := by
  apply dropReturn_of_getLast?
  rw [List.getLast?_append]
  cases hlast : v.text.toList.getLast? with
  | none => exact hname
  | some c =>
    have hc := getLast?_of_trim v.trimmed hlast
    intro e
    obtain rfl := Option.some.inj e
    exact absurd hc (by decide)

namespace DpkgScan

theorem line_package (s : DpkgScan) (v : FieldValue) :
    s.line ("Package: ".toList++v.text.toList)=⟨v.text,"",false,s.result⟩ := by
  rw [line,stripPrefix_append "Package: "]
  simp only [String.ofList_toList,v.trimmed]

theorem line_blank {s : DpkgScan} (hname : s.name≠"") :
    s.line []=
      { s with result := s.result++(if s.installed then [⟨s.name,s.version⟩] else []) } := by
  have hblank (pat : String) (h : pat.toList≠[]) : stripPrefix pat []=none :=
    stripPrefix_eq_none fun e => h (List.prefix_nil.mp e)
  rw [line,hblank _ (by decide),hblank _ (by decide),hblank _ (by decide)]
  cases h : s.installed
  · simp only [List.isEmpty_nil,Bool.and_false,Bool.false_and,Bool.false_eq_true,if_false,
      List.append_nil]
    rw [← h]
  · simp [hname]

/-- What a line of a stanza below its first does. -/
theorem line_text (s : DpkgScan) (l : StanzaLine) : s.line (dropReturn l.text)=
    ⟨s.name,l.version?.getD s.version,l.installed?.getD s.installed,s.result⟩ := by
  cases l with
  | version v =>
    show s.line (dropReturn ("Version: ".toList++v.text.toList))=_
    rw [dropReturn_field "Version: " (by decide),line,
      stripPrefix_other "Package: " "Version: " (by decide),stripPrefix_append "Version: "]
    simp only [String.ofList_toList,v.trimmed]
    rfl
  | status v =>
    show s.line (dropReturn ("Status: ".toList++v.text.toList))=_
    rw [dropReturn_field "Status: " (by decide),line,
      stripPrefix_other "Package: " "Status: " (by decide),
      stripPrefix_other "Version: " "Status: " (by decide),stripPrefix_append "Status: "]
    simp only [String.ofList_toList]
    rfl
  | other l =>
    have hother (field : String) (h : field ∈ ["Package: ","Version: ","Status: "]) :
        stripPrefix field (dropReturn l.text)=none :=
      stripPrefix_eq_none fun e => l.other field h (e.trans (dropReturn_begins l.text))
    have hshown := dropReturn_ne_nil l.shown.1 l.shown.2
    show s.line (dropReturn l.text)=_
    rw [line,hother "Package: " (by simp),hother "Version: " (by simp),
      hother "Status: " (by simp)]
    simp [hshown,StanzaLine.version?,StanzaLine.installed?]

/-- The last version and the last status count, and the result is not touched. -/
theorem foldl_fields (s : DpkgScan) (fields : List StanzaLine) :
    ((fields.map StanzaLine.text).map dropReturn).foldl line s=
      ⟨s.name,((fields.filterMap StanzaLine.version?).getLast?).getD s.version,
        ((fields.filterMap StanzaLine.installed?).getLast?).getD s.installed,s.result⟩ := by
  induction fields using List.reverseRecOn with
  | nil => rfl
  | append_singleton fields l ih =>
    rw [List.map_append,List.map_append,List.foldl_append,ih]
    simp only [List.map_cons,List.map_nil,List.foldl_cons,List.foldl_nil,line_text,
      List.filterMap_append,List.getLast?_append]
    cases l <;> simp [StanzaLine.version?,StanzaLine.installed?]

theorem foldl_blanks {s : DpkgScan} (hname : s.name≠"") (k : Nat) :
    (List.replicate k []).foldl line s={ s with result := s.result++
      (if s.installed then List.replicate k ⟨s.name,s.version⟩ else []) } := by
  induction k generalizing s with
  | zero =>
    rw [List.replicate_zero,List.replicate_zero,ite_self,List.append_nil]
    rfl
  | succ k ih =>
    rw [List.replicate_succ,List.foldl_cons,line_blank hname]
    have hrest := ih (s := { s with result := s.result++
      (if s.installed then [⟨s.name,s.version⟩] else []) }) hname
    refine hrest.trans ?_
    cases s.installed <;> simp [List.replicate_succ]

/-- A stanza that is installed is listed once for each blank line behind it. -/
theorem foldl_block (s : DpkgScan) (b : Stanza) (k : Nat) :
    ((b.lines++List.replicate k []).map dropReturn).foldl line s=
      ⟨b.package.text,b.version,b.installed,
        s.result++(if b.installed then List.replicate k b.software else [])⟩ := by
  have hblank : dropReturn []=[] := rfl
  rw [List.map_append,List.foldl_append,Stanza.lines,List.map_cons,List.foldl_cons,
    dropReturn_field "Package: " (by decide),line_package,foldl_fields,List.map_replicate,hblank]
  exact foldl_blanks b.named k

end DpkgScan

theorem DpkgStatus.oneLine (file : DpkgStatus) : ∀ l ∈ file.lines, '\n' ∉ l := by
  intro l hl
  obtain ⟨⟨b,k⟩,-,hl⟩ := List.mem_flatMap.mp hl
  have field {name : List Char} (hname : '\n' ∉ name) (v : FieldValue) :
      '\n' ∉ name++v.text.toList := by
    intro h
    rcases List.mem_append.mp h with h|h
    · exact hname h
    · exact v.oneLine h
  rcases List.mem_append.mp hl with hl|hl
  · rcases List.mem_cons.mp hl with rfl|hl
    · exact field (by decide) b.package
    · obtain ⟨line,-,rfl⟩ := List.mem_map.mp hl
      cases line with
      | version v => exact field (by decide) v
      | status v => exact field (by decide) v
      | other l => exact l.oneLine
  · rw [List.eq_of_mem_replicate hl]
    exact List.not_mem_nil

/-- Every installed package is listed once for each blank line behind it. -/
theorem parseDpkgStatus_text (file : DpkgStatus) :
    parseDpkgStatus file.text=expand file.installed := by
  have run (blocks : List (Stanza × Nat)) (s : DpkgScan) :
      (((blocks.flatMap fun b => b.1.lines++List.replicate b.2 []).map dropReturn).foldl
        DpkgScan.line s).result=s.result++expand
          ((blocks.filter (·.1.installed)).map fun b => (b.1.software,b.2)) := by
    induction blocks generalizing s with
    | nil => simp [expand]
    | cons b blocks ih =>
      rw [List.flatMap_cons,List.map_append,List.foldl_append,DpkgScan.foldl_block,ih]
      cases h : b.1.installed <;> simp [h]
  rw [parseDpkgStatus,DpkgStatus.text,lines_unlines file.oneLine]
  exact run file.blocks _

theorem DpkgStatus.installed_separated (file : DpkgStatus) :
    ∀ e ∈ file.installed.dropLast, 1 ≤ e.2 := by
  intro e he
  rw [installed] at he
  rcases List.eq_nil_or_concat file.blocks with hnil|⟨init,b,hblocks⟩
  · rw [hnil] at he
    cases he
  · have hsep := file.separated
    rw [hblocks,List.concat_eq_append,List.dropLast_concat] at hsep
    rw [hblocks,List.concat_eq_append,List.filter_append,List.map_append] at he
    have hinit : e ∈ (init.filter (·.1.installed)).map fun b => (b.1.software,b.2) := by
      cases hb : b.1.installed with
      | true =>
        simp only [List.filter_cons,hb,if_true,List.filter_nil,List.map_cons,List.map_nil,
          List.dropLast_concat] at he
        exact he
      | false =>
        simp only [List.filter_cons,hb,Bool.false_eq_true,if_false,List.filter_nil,List.map_nil,
          List.append_nil] at he
        exact List.mem_of_mem_dropLast he
    obtain ⟨c,hc,rfl⟩ := List.mem_map.mp hinit
    exact hsep c (List.mem_filter.mp hc).1

/-- The installed packages are listed once each and in order exactly if one blank line stands
behind each of them, or if one that is missing at the end is made up for by its double. -/
theorem parseDpkgStatus_installed_iff (file : DpkgStatus) :
    parseDpkgStatus file.text=file.installed.map Prod.fst ↔
      (∀ e ∈ file.installed, e.2=1) ∨ Shifted file.installed := by
  rw [parseDpkgStatus_text]
  exact expand_eq_iff file.installed_separated

/-- An installed package with a line that continues a field. -/
def acl : Stanza where
  package := ⟨"acl",by decide,by decide +kernel⟩
  named := by decide
  fields := [.status ⟨"install ok installed",by decide,by decide +kernel⟩,
    .version ⟨"2.3.1",by decide,by decide +kernel⟩,
    .other ⟨" access control lists".toList,by decide,by decide,by decide +kernel⟩]

/-- With no blank line at the end the package is not listed, with two it is listed twice. -/
theorem parseDpkgStatus_acl :
    parseDpkgStatus (DpkgStatus.text ⟨[(acl,0)],by simp⟩)=[] ∧
    (DpkgStatus.installed ⟨[(acl,0)],by simp⟩).map Prod.fst=[⟨"acl","2.3.1"⟩] ∧
    parseDpkgStatus (DpkgStatus.text ⟨[(acl,2)],by simp⟩)=[⟨"acl","2.3.1"⟩,⟨"acl","2.3.1"⟩] ∧
    ¬∀ file : DpkgStatus, parseDpkgStatus file.text=file.installed.map Prod.fst := by
  have missing : parseDpkgStatus (DpkgStatus.text ⟨[(acl,0)],by simp⟩)=[] := by decide +kernel
  have expected : (DpkgStatus.installed ⟨[(acl,0)],by simp⟩).map Prod.fst=
      [⟨"acl","2.3.1"⟩] := by decide +kernel
  refine ⟨missing,expected,by decide +kernel,?_⟩
  intro h
  have heq := h ⟨[(acl,0)],by simp⟩
  rw [missing,expected] at heq
  cases heq

end NacPlatform.EndpointAgent
