import ModuleBundler.Engine.Packager
import ModuleBundler.Proofs.Text
import ModuleBundler.Proofs.Engine.Run
import ModuleBundler.Proofs.Evaluation
import ModuleBundler.Proofs.Path
import ModuleBundler.Proofs.Bundle.MapReading

/-!
# Where a bundle's lines come from

A finished bundle is its modules' code joined by line feeds. A module backed by a file is
registered with `__d(name, factory)`: one header line, then every line of its code with its
requires rewritten, indented by two blanks, then the closing line. Its section of the bundle's
indexed map starts one line below the module's first line and maps each line onto itself.

The main statement (`bundleFinish_lines_aligned`) reads the map back against the text: one
section per file-backed module in module order, at an offset from which line `i` of the bundle
is line `i` of the module's rewritten code, indented; and the section's mappings, decoded by the
version 3 rules, send line `i` to line `i` of the module's one source. The map counts the lines
of the source, the text counts those of the rewritten code: the two agree exactly when the
rewriting keeps the number of lines, which a resolved name holding a line feed breaks
(`raw_name_with_line_feed_adds_a_line`).
-/

namespace ModuleBundler

namespace SourceMap

/-! ## Lines -/

/-- The lines of a text, cut at line feeds; `lineCount` counts them. -/
def lines (s : String) : List String := Text.splitOnChar s '\n'

theorem length_lines (s : String) : (lines s).length = lineCount s := rfl

theorem lines_eq_splitOn (s : String) : lines s = (s.toList.splitOn '\n').map String.ofList :=
  Text.splitOnChar_eq_splitOn s '\n'

theorem lines_ne_nil (s : String) : lines s ≠ [] := by
  simp [lines_eq_splitOn, List.splitOn_ne_nil]

theorem lineCount_pos (s : String) : 0 < lineCount s := by
  rw [← length_lines]
  exact List.length_pos_iff.2 (lines_ne_nil s)

/-- A text without a line feed is one line. -/
theorem lines_of_not_mem {s : String} (h : '\n' ∉ s.toList) : lines s = [s] :=
  Text.splitOnChar_of_not_mem h

/-- No line holds a line feed. -/
theorem not_mem_of_mem_lines {s l : String} (h : l ∈ lines s) : '\n' ∉ l.toList := by
  rw [lines_eq_splitOn, List.mem_map] at h
  obtain ⟨cs, hcs, rfl⟩ := h
  simpa using Text.not_mem_of_mem_splitOn hcs

/-- Texts joined by line feeds have the lines of each, in turn. -/
theorem lines_intercalate {l : List String} (hl : l ≠ []) :
    lines ("\n".intercalate l) = l.flatMap lines := by
  have hl' : l.map String.toList ≠ [] := by simpa using hl
  simp only [lines_eq_splitOn, String.toList_intercalate]
  rw [show "\n".toList = ['\n'] from rfl, Text.splitOn_intercalate_sep '\n' hl', List.flatMap_map,
    List.map_flatMap]
  congr 1
  funext a
  exact (lines_eq_splitOn a).symm

/-- Two texts with a line feed between them. -/
theorem lines_append_newline (a b : String) : lines (a ++ "\n" ++ b) = lines a ++ lines b := by
  simp only [lines_eq_splitOn, String.toList_append, List.append_assoc]
  rw [show "\n".toList = ['\n'] from rfl, List.singleton_append, List.splitOn_append_cons_self,
    List.map_append]

end SourceMap

open SourceMap

/-! ## The registration wrapper -/

namespace Json

/-- A line feed is escaped, and no escape writes one. -/
theorem newline_not_mem_escapeChar (c : Char) : '\n' ∉ escapeChar c := by
  unfold escapeChar
  split_ifs with h₁ h₂ h₃ h₄ h₅ h₆ h₇ h₈
  all_goals try decide
  · -- the hex digits of a control below U+0020
    have hhex : ∀ n, n < 16 → hexDigit n ≠ '\n' := by decide
    simp only [List.mem_cons, List.not_mem_nil, or_false, not_or]
    exact ⟨by decide, by decide, by decide, by decide, (hhex _ (by omega)).symm,
      (hhex _ (Nat.mod_lt _ (by decide))).symm⟩
  · simpa [eq_comm] using h₃

/-- A quoted string is one line. -/
theorem newline_not_mem_quote (s : String) : '\n' ∉ (quote s).toList := by
  simp only [quote, String.toList_ofList, List.mem_cons, List.mem_append, List.mem_flatMap,
    not_or, not_exists, not_and]
  exact ⟨by decide, fun c _ => newline_not_mem_escapeChar c, by decide⟩

end Json

namespace Wrap

/-- The line a registered module opens with. -/
def headerLine (name : String) : String :=
  "__d(" ++ Json.quote name ++ ", function(" ++ moduleArgs ++ ") \x7b"

theorem defineModule_eq (name code : String) :
    defineModule name code = headerLine name ++ "\n" ++ indent code ++ "\n" ++ "\x7d);" := by
  rw [← String.toList_inj]
  simp [defineModule, headerLine]

/-- Indenting keeps the lines, each behind two blanks. -/
theorem lines_indent (code : String) : lines (indent code) = (lines code).map ("  " ++ ·) := by
  rw [indent, ← lines, lines_intercalate (by simpa using lines_ne_nil code), List.flatMap_map]
  have hone : ∀ l ∈ lines code, lines ("  " ++ l) = ["  " ++ l] := fun l hl =>
    lines_of_not_mem (by simpa using not_mem_of_mem_lines hl)
  rw [List.flatMap_congr hone, List.map_eq_flatMap]

/-- A registered module: its header line, each line of its code indented, the closing line. -/
theorem lines_defineModule (name code : String) :
    lines (defineModule name code) = headerLine name :: (lines code).map ("  " ++ ·) ++ ["\x7d);"] := by
  have hhead : '\n' ∉ (headerLine name).toList := by
    simp [headerLine, moduleArgs, Json.newline_not_mem_quote]
  have hclose : lines "\x7d);" = ["\x7d);"] := lines_of_not_mem (by decide)
  rw [defineModule_eq, lines_append_newline, lines_append_newline, lines_of_not_mem hhead,
    lines_indent, hclose]
  rfl

end Wrap

/-! ## Identity maps read back -/

namespace SourceMap

/-- The one segment of line `l` of an identity map. -/
theorem identityLine_eq (l : Nat) :
    vlq 0 ++ vlq 0 ++ vlq (if l > 0 then 1 else 0) ++ vlq 0 = if l > 0 then "AACA" else "AAAA" := by
  split <;> decide

/-- The first line maps onto the first source line. -/
theorem decodeLine_first : decodeLine (0, 0, 0) "AAAA" = some ([⟨0, some (0, 0, 0)⟩], (0, 0, 0)) := by
  decide

/-- Every later line maps onto the source line after the one before. -/
theorem decodeLine_next (k : Int) :
    decodeLine (0, k, 0) "AACA" = some ([⟨0, some (0, k + 1, 0)⟩], (0, k + 1, 0)) := by
  have hseg : segmentValues "AACA" = some [0, 0, 1, 0] := by decide
  have hsplit : Text.splitOnChar "AACA" ',' = ["AACA"] := by decide
  simp [decodeLine, hsplit, decodeSegments, hseg, decodeSegment]

/-- The lines after the first of an identity map each map onto the source line after the one
before. -/
theorem decodeLines_replicate (m : Nat) :
    ∀ k : Nat, decodeLines (0, (k : Int), 0) (List.replicate m "AACA") =
      some ((List.range' (k + 1) m).map fun i => [⟨0, some (0, (i : Int), 0)⟩]) := by
  induction m with
  | zero => intro k; rfl
  | succ m ih =>
    intro k
    have hk := ih (k + 1)
    rw [List.replicate_succ, decodeLines, decodeLine_next]
    push_cast at hk
    simp [hk, List.range'_succ]

/-- An identity map over `m + 1` lines: its first line, then `m` lines stepping one source line
down. -/
theorem identityMappings_succ (m : Nat) :
    identityMappings (m + 1) = ";".intercalate ("AAAA" :: List.replicate m "AACA") := by
  have hitems : (List.range (m + 1)).map (fun l =>
      vlq 0 ++ vlq 0 ++ vlq (if l > 0 then 1 else 0) ++ vlq 0) = "AAAA" :: List.replicate m "AACA" := by
    rw [List.range_succ_eq_map, List.map_cons, List.map_map, identityLine_eq, if_neg (by omega)]
    congr 1
    rw [List.eq_replicate_iff]
    refine ⟨by simp, fun s hs => ?_⟩
    obtain ⟨l, -, rfl⟩ := List.mem_map.1 hs
    simp [identityLine_eq]
  rw [identityMappings, hitems]

/-- The mappings of an identity map over `n` lines send line `i`, column 0, to line `i`, column 0,
of source 0, and hold nothing else. -/
theorem decodeMappings_identityMappings {n : Nat} (hn : 0 < n) :
    decodeMappings (identityMappings n) =
      some ((List.range n).map fun i => [⟨0, some (0, (i : Int), 0)⟩]) := by
  obtain ⟨m, rfl⟩ : ∃ m, n = m + 1 := ⟨n - 1, by omega⟩
  have hsplit : Text.splitOnChar (";".intercalate ("AAAA" :: List.replicate m "AACA")) ';' =
      "AAAA" :: List.replicate m "AACA" := by
    refine Text.splitOnChar_intercalate (List.cons_ne_nil _ _) fun s hs => ?_
    rcases List.mem_cons.1 hs with rfl | hs
    · decide
    · rw [List.eq_of_mem_replicate hs]
      decide
  rw [decodeMappings, identityMappings_succ, hsplit, decodeLines, decodeLine_first]
  have := decodeLines_replicate m 0
  push_cast at this
  simp [this, List.range_succ_eq_map, List.range'_eq_map_range, Int.add_comm]

end SourceMap

/-! ## Lines of the bundle and sections of its map -/

namespace Bundle

/-- Modules, each with the line its code starts on when the first starts on line `n`. -/
def placeFrom : Nat → List ModuleTransport → List (Nat × ModuleTransport)
  | _, [] => []
  | n, m :: ms => (n, m) :: placeFrom (n + lineCount m.code) ms

/-- The modules of a bundle, each with the line of the bundle its code starts on. -/
def placed (b : Bundle) : List (Nat × ModuleTransport) := placeFrom 0 b.modules.toList

/-- The section a module starting on line `n` has in the bundle's map: none when no file backs
it, else one below the wrapper's header, with the module's map or the identity map. -/
def sectionAt (n : Nat) (m : ModuleTransport) : Option SourceMap.Section :=
  if m.isVirtual then none
  else some ⟨n + (if m.wrapped then Wrap.headerLines else 0),
    m.map.getD (identityMap m.sourcePath m.sourceCode)⟩

/-- The lines of modules joined one after another hold each module's lines where `placeFrom`
puts them. -/
theorem lines_of_mem_placeFrom :
    ∀ {k : Nat} {ms : List ModuleTransport} {n : Nat} {m : ModuleTransport},
      (n, m) ∈ placeFrom k ms → ∃ pre post,
        ms.flatMap (fun m => lines m.code) = pre ++ lines m.code ++ post ∧ k + pre.length = n
  | _, [], _, _, h => by simp [placeFrom] at h
  | k, m' :: ms, n, m, h => by
    rw [placeFrom, List.mem_cons] at h
    rcases h with h | h
    · obtain ⟨rfl, rfl⟩ := Prod.mk.inj h
      exact ⟨[], ms.flatMap (fun m => lines m.code), by simp, rfl⟩
    · obtain ⟨pre, post, hsplit, hn⟩ := lines_of_mem_placeFrom h
      refine ⟨lines m'.code ++ pre, post, by simp [hsplit], ?_⟩
      rw [List.length_append, length_lines]
      omega

theorem mem_of_mem_placeFrom :
    ∀ {k : Nat} {ms : List ModuleTransport} {n : Nat} {m : ModuleTransport},
      (n, m) ∈ placeFrom k ms → m ∈ ms
  | _, [], _, _, h => by simp [placeFrom] at h
  | _, m' :: ms, _, _, h => by
    rw [placeFrom, List.mem_cons] at h
    rcases h with h | h
    · rw [(Prod.mk.inj h).2]
      exact List.mem_cons_self
    · exact List.mem_cons_of_mem _ (mem_of_mem_placeFrom h)

/-- The sections of the modules from line `n`, in order, as the map's fold gathers them. -/
theorem foldl_sections (ms : List ModuleTransport) (n : Nat) (acc : List SourceMap.Section) :
    ms.foldl (fun (acc : Nat × List SourceMap.Section) (m : ModuleTransport) =>
        (acc.1 + lineCount m.code,
          if m.isVirtual then acc.2
          else ⟨acc.1 + (if m.wrapped then Wrap.headerLines else 0),
            m.map.getD (identityMap m.sourcePath m.sourceCode)⟩ :: acc.2)) (n, acc) =
      ((ms.map fun m => lineCount m.code).foldl (· + ·) n,
        ((placeFrom n ms).filterMap fun p => sectionAt p.1 p.2).reverse ++ acc) := by
  induction ms generalizing n acc with
  | nil => simp [placeFrom]
  | cons m ms ih =>
    rw [List.foldl_cons, ih, placeFrom, List.filterMap_cons]
    by_cases hv : m.isVirtual = true <;> simp [sectionAt, hv]

/-- The bundle's map is the indexed map of its modules' sections, in module order. -/
theorem sourceMap_eq (b : Bundle) :
    b.sourceMap = indexedMap "bundle.js" (b.placed.filterMap fun p => sectionAt p.1 p.2) := by
  rw [sourceMap, ← Array.foldl_toList]
  simp only
  rw [foldl_sections]
  simp [placed]

/-- Without a map's URL the bundle's text is its modules' code, one after another. -/
theorem lines_source {b : Bundle} (hurl : b.sourceMapUrl = none) (hne : b.modules.toList ≠ []) :
    lines (b.source false) = b.modules.toList.flatMap fun m => lines m.code := by
  rw [source, if_neg Bool.false_ne_true, hurl]
  simp only
  rw [lines_intercalate (by simpa using hne), List.flatMap_map]

/-- Line `n + i` of the bundle is line `i` of the module placed on line `n`. -/
theorem line_of_mem_placed {b : Bundle} (hurl : b.sourceMapUrl = none) {n : Nat}
    {m : ModuleTransport} (hm : (n, m) ∈ b.placed) {i : Nat} (hi : i < lineCount m.code) :
    (lines (b.source false))[n + i]? = (lines m.code)[i]? := by
  obtain ⟨pre, post, hsplit, hn⟩ := lines_of_mem_placeFrom hm
  have hne : b.modules.toList ≠ [] := by
    intro h
    simp [placed, h, placeFrom] at hm
  rw [lines_source hurl hne, hsplit, ← hn, Nat.zero_add, List.append_assoc,
    List.getElem?_append_right (Nat.le_add_right _ _), Nat.add_sub_cancel_left,
    List.getElem?_append_left (by rwa [length_lines])]

end Bundle

/-! ## Bundles the bundler assembles -/

open EngineM

namespace ModuleTransport

/-- A module as the bundler emits it from code its transformer gave back as it was: when a file
backs it, it is registered, carries no map of its own, and its code is its source with its
requires rewritten. -/
def Registered (m : ModuleTransport) : Prop :=
  m.isVirtual = false → m.wrapped = true ∧ m.map = none ∧
    ∃ rs, m.code = Wrap.defineModule m.name (Wrap.resolveRequires m.sourceCode rs)

end ModuleTransport

/-- A bundle being assembled: no map URL, and every module registered. -/
def Bundle.Assembled (b : Bundle) : Prop :=
  b.sourceMapUrl = none ∧ ∀ m ∈ b.modules.toList, m.Registered

theorem Bundle.Assembled.addModule {b b' : Bundle} {m : ModuleTransport} (hb : b.Assembled)
    (hm : m.Registered) (h : b.addModule m = .ok b') : b'.Assembled := by
  unfold Bundle.addModule at h
  split at h
  · cases h
  · cases h
    refine ⟨hb.1, fun m' hm' => ?_⟩
    rw [Array.toList_push, List.mem_append, List.mem_singleton] at hm'
    rcases hm' with hm' | rfl
    · exact hb.2 m' hm'
    · exact hm

theorem Bundle.Assembled.finalize {b b' : Bundle} (hb : b.Assembled) {run : Bool}
    {before : List String} (h : b.finalize run before = .ok b') : b'.Assembled := by
  unfold Bundle.finalize at h
  split at h
  · cases h
  · cases h
    refine ⟨hb.1, fun m hm => ?_⟩
    simp only [Array.toList_append, List.mem_append, List.mem_map] at hm
    rcases hm with hm | ⟨id, -, rfl⟩
    · exact hb.2 m hm
    · intro hv
      simp [Bundle.requireModule] at hv

theorem Yields.lift_id {α : Type} {r : Except Error α} {P : α → Prop}
    (h : ∀ a, r = .ok a → P a) : Yields (lift id r) P := by
  cases r with
  | error err => exact .fail err
  | ok a => exact .pure (h a rfl)

variable {opts : BundleOptions} {handle : Option Nat} {response : Response}
  {loaded : List LoadedModule}

/-- Assembling modules whose code is their source as loaded registers every module a file backs. -/
theorem bundleFinish_assembled (hident : ∀ l ∈ loaded, l.isVirtual = false →
      l.isPolyfill = false ∧ l.code = l.sourceCode ∧ l.map = none) :
    Yields (bundleFinish opts handle response loaded) Bundle.Assembled := by
  unfold bundleFinish
  refine .bind (.trivial _) fun _ _ => ?_
  refine .bind (Yields.forIn_list_of_mem (I := Bundle.Assembled) _ (fun x hx b hb => ?_) _
    ⟨rfl, by simp [Bundle.new]⟩) fun b hb => ?_
  · obtain ⟨mid, l⟩ := x
    have hl : l ∈ loaded := (List.of_mem_zip hx).2
    -- adding a registered module keeps the bundle assembled, whether an asset came first or not
    have hstep : ∀ t : ModuleTransport, t.Registered → ∀ b' : Bundle, b'.Assembled → Yields (do
        let b ← lift id (b'.addModule t)
        pure (ForInStep.yield b)) fun s => s.value.Assembled := fun t ht b' hb' =>
      .bind (Yields.lift_id fun b'' h => hb'.addModule ht h) fun b'' h => .pure h
    refine .ite (fun hpoly => .bind (.pure rfl) fun t ht => ?_)
      (fun hpoly => .bind (.trivial _) fun rs _ => .bind (.pure rfl) fun t ht => ?_)
    · have ht' : t.Registered := ht ▸ fun hv => absurd hpoly (by simp [(hident l hl hv).1])
      dsimp only
      split
      · exact hstep t ht' _ ⟨hb.1, hb.2⟩
      · exact hstep t ht' _ hb
    · have ht' : t.Registered := ht ▸ fun hv => by
        obtain ⟨-, hcode, hmap⟩ := hident l hl hv
        exact ⟨rfl, hmap, rs, by simp [LoadedModule.transport, hcode]⟩
      dsimp only
      split
      · exact hstep t ht' _ ⟨hb.1, hb.2⟩
      · exact hstep t ht' _ hb
  · have hb' : Bundle.Assembled
        { b with mainModuleId := response.mainModuleId, numPrepended := response.numPrepended } :=
      ⟨hb.1, hb.2⟩
    exact Yields.lift_id fun b' h => hb'.finalize h

/-- What a finished bundle's map says of its text, for the modules files back. -/
structure Bundle.LinesAligned (b : Bundle) : Prop where
  /-- One section per module a file backs, in module order, one line below where the module's
  code starts, mapping the module's source onto itself. -/
  sections : b.sourceMap = indexedMap "bundle.js" (b.placed.filterMap fun p =>
    if p.2.isVirtual then none
    else some ⟨p.1 + Wrap.headerLines, identityMap p.2.sourcePath p.2.sourceCode⟩)
  /-- From a section's line on, the bundle holds the module's code with its requires rewritten,
  line for line, indented. -/
  lines : ∀ n m, (n, m) ∈ b.placed → m.isVirtual = false → ∃ rs,
    m.code = Wrap.defineModule m.name (Wrap.resolveRequires m.sourceCode rs) ∧
    ∀ i < lineCount (Wrap.resolveRequires m.sourceCode rs),
      (lines (b.source false))[n + Wrap.headerLines + i]? =
        (lines (Wrap.resolveRequires m.sourceCode rs))[i]?.map ("  " ++ ·)
  /-- A section's mappings send each line of the module's source onto itself. -/
  mappings : ∀ n m, (n, m) ∈ b.placed → m.isVirtual = false →
    decodeMappings (identityMappings (lineCount m.sourceCode)) =
      some ((List.range (lineCount m.sourceCode)).map fun i => [⟨0, some (0, (i : Int), 0)⟩])

/-- Line `headerLines + i` of a registered module is line `i` of its code, indented. -/
theorem lines_defineModule_getElem? (name code : String) {i : Nat} (hi : i < lineCount code) :
    (lines (Wrap.defineModule name code))[Wrap.headerLines + i]? = (lines code)[i]?.map ("  " ++ ·) := by
  rw [Wrap.lines_defineModule, Wrap.headerLines, Nat.add_comm,
    List.getElem?_append_left (by simpa [length_lines] using hi), List.getElem?_cons_succ,
    List.getElem?_map]

/-- A bundle assembled from modules whose code is their source as loaded: its map has a section for
each module a file backs, in order, from whose line the bundle holds that module's rewritten code
line for line, and whose mappings send each source line onto itself. -/
theorem bundleFinish_lines_aligned {c : Context} {e e' : Engine} {b : Bundle}
    (hident : ∀ l ∈ loaded, l.isVirtual = false →
      l.isPolyfill = false ∧ l.code = l.sourceCode ∧ l.map = none)
    (hrun : run (bundleFinish opts handle response loaded) c e = (.ok b, e')) :
    b.LinesAligned := by
  obtain ⟨hurl, hreg⟩ := bundleFinish_assembled hident c e b e' hrun
  have hreg' : ∀ n m, (n, m) ∈ b.placed → m.Registered := fun n m hm =>
    hreg m (Bundle.mem_of_mem_placeFrom hm)
  refine ⟨?_, fun n m hm hv => ?_, fun _ m _ _ => decodeMappings_identityMappings (lineCount_pos _)⟩
  · -- a registered module has no map of its own and sits below one header line
    rw [Bundle.sourceMap_eq]
    congr 1
    refine List.filterMap_congr fun p hp => ?_
    unfold Bundle.sectionAt
    split
    · rfl
    · next hv =>
      obtain ⟨hw, hmap, -⟩ := hreg' p.1 p.2 hp (by simpa using hv)
      simp [hw, hmap]
  · obtain ⟨-, -, rs, hcode⟩ := hreg' n m hm hv
    refine ⟨rs, hcode, fun i hi => ?_⟩
    have hin : Wrap.headerLines + i < lineCount m.code := by
      rw [hcode, ← length_lines, Wrap.lines_defineModule]
      simp only [List.length_append, List.length_cons, List.length_map, length_lines,
        Wrap.headerLines]
      omega
    rw [Nat.add_assoc, Bundle.line_of_mem_placed hurl hm hin, hcode,
      lines_defineModule_getElem? _ _ hi]

/-- A bundle of `index.js`, which requires `./a` and has two lines, and `a.js`: the modules it is
assembled from are loaded as they are, and its map lines up with its text. -/
theorem bundle_lines_aligned_of_two_files :
    let w : Path := ⟨[.root, .name "w"]⟩
    let D : Disk := ⟨[(w, .dir),
      (w.child "index.js", .file "require('./a');\nvar x = 1;".toUTF8.toList 0),
      (w.child "a.js", .file "module.exports = 2;".toUTF8.toList 0)], 0, Disk.rootPath⟩
    let opts : PackagerOptions := { PackagerOptions.default with projectRoots := ["/w"] }
    let bo : BundleOptions := ⟨"index.js", some "android", true, false, false, [], false, false⟩
    ∃ c e response loaded e₁ b e₂, startPackager opts .default .identity D = .ok (c, e) ∧
      run (bundlePrepare bo none) c e = (.ok (response, loaded), e₁) ∧
      (∀ l ∈ loaded, l.isVirtual = false →
        l.isPolyfill = false ∧ l.code = l.sourceCode ∧ l.map = none) ∧
      run (bundleFinish bo none response loaded) c e₁ = (.ok b, e₂) ∧ b.LinesAligned := by
  intro w D opts bo
  -- one evaluation of the start, the loading and the assembly; its facts are then read off
  have h : ((startPackager opts .default .identity D).toOption.any fun r =>
      (run (bundlePrepare bo none) r.1 r.2).1.toOption.any fun p =>
        p.2.all (fun l => l.isVirtual || (!l.isPolyfill && l.code == l.sourceCode && l.map.isNone)) &&
          (run (bundleFinish bo none p.1 p.2) r.1 (run (bundlePrepare bo none) r.1 r.2).2).1.toOption.isSome) =
      true := by
    decide +kernel
  obtain ⟨⟨c, e⟩, hs, h⟩ := (Option.any_eq_true _ _).1 h
  obtain ⟨⟨response, loaded⟩, hp, h⟩ := (Option.any_eq_true _ _).1 h
  simp only [Bool.and_eq_true, List.all_eq_true] at h
  obtain ⟨hall, hfin⟩ := h
  obtain ⟨b, hb⟩ := Option.isSome_iff_exists.1 hfin
  have hident : ∀ l ∈ loaded, l.isVirtual = false →
      l.isPolyfill = false ∧ l.code = l.sourceCode ∧ l.map = none := fun l hl hv => by
    simpa [hv, Option.isNone_iff_eq_none, and_assoc] using hall l hl
  have hprep : run (bundlePrepare bo none) c e = (.ok (response, loaded), _) :=
    Prod.ext (eq_ok_of_toOption hp) rfl
  have hrun : run (bundleFinish bo none response loaded) c (run (bundlePrepare bo none) c e).2 =
      (.ok b, _) := Prod.ext (eq_ok_of_toOption hb) rfl
  exact ⟨c, e, response, loaded, _, b, _, eq_ok_of_toOption hs, hprep, hident, hrun,
    bundleFinish_lines_aligned hident hrun⟩

/-- `b.js` requires `./index`, the main module of a package named `a` line feed `b`. The require is
rewritten to that name as it is, so the rewritten code has two lines where the source has one: the
module's section maps one line while the bundle holds two. -/
theorem raw_name_with_line_feed_adds_a_line :
    let w : Path := ⟨[.root, .name "w"]⟩
    let D : Disk := ⟨[(w, .dir),
      (w.child "package.json", .file "\x7b\"name\": \"a\\nb\"\x7d".toUTF8.toList 0),
      (w.child "index.js", .file [] 0),
      (w.child "b.js", .file "require(\"./index\");".toUTF8.toList 0)], 0, Disk.rootPath⟩
    let opts : PackagerOptions := { PackagerOptions.default with projectRoots := ["/w"] }
    let bo : BundleOptions := ⟨"b.js", some "android", true, false, false, [], false, false⟩
    ∃ c e b e', startPackager opts .default .identity D = .ok (c, e) ∧
      run (bundleBuild bo none) c e = (.ok b, e') ∧
      ∃ m ∈ b.modules.toList, m.isVirtual = false ∧ m.sourceCode = "require(\"./index\");" ∧
        m.code = Wrap.defineModule m.name "require(\"a\nb\");" ∧
        lineCount "require(\"a\nb\");" = 2 ∧ lineCount m.sourceCode = 1 := by
  intro w D opts bo
  have h : ((startPackager opts .default .identity D).toOption.any fun r =>
      (run (bundleBuild bo none) r.1 r.2).1.toOption.any fun b =>
        b.modules.toList.any fun m => !m.isVirtual && m.sourceCode == "require(\"./index\");" &&
          m.code == Wrap.defineModule m.name "require(\"a\nb\");") = true := by
    decide +kernel
  obtain ⟨⟨c, e⟩, hs, h⟩ := (Option.any_eq_true _ _).1 h
  obtain ⟨b, hb, h⟩ := (Option.any_eq_true _ _).1 h
  obtain ⟨m, hm, h⟩ := List.any_eq_true.1 h
  simp only [Bool.and_eq_true, Bool.not_eq_true', beq_iff_eq] at h
  obtain ⟨⟨hv, hsrc⟩, hcode⟩ := h
  refine ⟨c, e, b, _, eq_ok_of_toOption hs, Prod.ext (eq_ok_of_toOption hb) rfl, m, hm, hv, hsrc,
    hcode, by decide, by rw [hsrc]; decide⟩

end ModuleBundler
