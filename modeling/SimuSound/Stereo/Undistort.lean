import SimuSound.Stereo.MapFile

/-!
# Undistort — the calibration maps of a `StereoUndistort`

`setup_stereo_undistort` sets the size and then reads the four maps one after the other.  Each map
is in the object before the next one is read, and it returns at the first one that cannot be read.
-/

namespace SimuSound.Stereo

open Reasoning

/-- A `cv::Mat` of type `CV_32FC1`. -/
structure Mat where
  width : ℕ
  height : ℕ
  data : List FloatBits
  deriving DecidableEq

/-- The size of an image; the number of its pixels is an `int`. -/
structure ImageSize where
  width : ℕ
  height : ℕ
  width_pos : 0 < width
  height_pos : 0 < height
  fits : width * height < 2 ^ 31

/-- `cv::Mat::zeros` -/
def Mat.zeros (size : ImageSize) : Mat :=
  ⟨size.width, size.height, List.replicate (size.width * size.height) 0⟩

structure StereoUndistort where
  imgWidth : Int
  imgHeight : Int
  L1 : Mat
  L2 : Mat
  R1 : Mat
  R2 : Mat
  deriving DecidableEq

/-- The arguments of `setup_stereo_undistort`. -/
structure Calibration where
  size : ImageSize
  L1MatPath : String
  L2MatPath : String
  R1MatPath : String
  R2MatPath : String

variable {d : DataModel}

/-- One of the four blocks of `setup_stereo_undistort`: `temp` is cleared, read and copied. -/
def loadMap (d : DataModel) (size : ImageSize) (path : String)
    (copyTo : Mat → StereoUndistort → StereoUndistort) : StateT StereoUndistort Io Int := do
  let temp := Mat.zeros size
  let r ← readFloatFileIntoArray d (size.width * size.height : ℕ) path temp.data
  if r.1 ≠ 0 then return r.1
  modify (copyTo { temp with data := r.2 })
  return 0

def setupStereoUndistort (d : DataModel) (c : Calibration) : StateT StereoUndistort Io Int := do
  modify fun self => { self with imgWidth := c.size.width, imgHeight := c.size.height }
  let ret ← loadMap d c.size c.L1MatPath fun temp self => { self with L1 := temp }
  if ret ≠ 0 then return ret
  let ret ← loadMap d c.size c.L2MatPath fun temp self => { self with L2 := temp }
  if ret ≠ 0 then return ret
  let ret ← loadMap d c.size c.R1MatPath fun temp self => { self with R1 := temp }
  if ret ≠ 0 then return ret
  let ret ← loadMap d c.size c.R2MatPath fun temp self => { self with R2 := temp }
  if ret ≠ 0 then return ret
  return 0

/-- A call of `cv::remap`. -/
structure Remap (Image : Type) where
  src : Image
  map1 : Mat
  map2 : Mat

/-- `undistort`: what it has `cv::remap` do for the left image and for the right one. -/
def StereoUndistort.undistort {Image : Type} (self : StereoUndistort) (imgLIn imgRIn : Image) :
    Remap Image × Remap Image :=
  (⟨imgLIn, self.L1, self.L2⟩, ⟨imgRIn, self.R1, self.R2⟩)

/-! ## Calibrations -/

/-- The floats of a file in file order. -/
def Stdio.floatsAt (s : Stdio d) (path : String) : List FloatBits :=
  match s.files path with
  | some contents => floatsOf contents.bytes
  | none => []

def Calibration.paths (c : Calibration) : List String :=
  [c.L1MatPath, c.L2MatPath, c.R1MatPath, c.R2MatPath]

/-- The map in a file. -/
def Calibration.mapAt (c : Calibration) (s : Stdio d) (path : String) : Mat :=
  ⟨c.size.width, c.size.height, s.floatsAt path⟩

/-- The file is there and has one float for each pixel. -/
def Calibration.Fills (c : Calibration) (s : Stdio d) (path : String) : Prop :=
  s.files path ≠ none ∧ (s.floatsAt path).length = c.size.width * c.size.height

/-- The object with the size and the maps of a calibration. -/
def Calibration.object (c : Calibration) (s : Stdio d) : StereoUndistort where
  imgWidth := c.size.width
  imgHeight := c.size.height
  L1 := c.mapAt s c.L1MatPath
  L2 := c.mapAt s c.L2MatPath
  R1 := c.mapAt s c.R1MatPath
  R2 := c.mapAt s c.R2MatPath

def StereoUndistort.maps (self : StereoUndistort) : List Mat := [self.L1, self.L2, self.R1, self.R2]

theorem StereoUndistort.ext_maps {o o' : StereoUndistort} (hwidth : o.imgWidth = o'.imgWidth)
    (hheight : o.imgHeight = o'.imgHeight) (hmaps : o.maps = o'.maps) : o = o' := by
  obtain ⟨w, h, l1, l2, r1, r2⟩ := o
  obtain ⟨w', h', l1', l2', r1', r2'⟩ := o'
  simp only [maps, List.cons.injEq, and_true] at hmaps
  obtain ⟨rfl, rfl, rfl, rfl⟩ := hmaps
  obtain rfl : w = w' := hwidth
  obtain rfl : h = h' := hheight
  rfl

/-! ## How a setup goes -/

/-- The maps whose files were read completely. -/
def loadedMaps (c : Calibration) (tr : StdioTrace d) : List Mat :=
  (completeReads tr).map (Mat.mk c.size.width c.size.height)

theorem Calibration.congr_files {s s' : Stdio d} (c : Calibration) (h : s'.files = s.files) :
    s'.floatsAt = s.floatsAt ∧ c.mapAt s' = c.mapAt s ∧ c.Fills s' = c.Fills s := by
  have hfloats : s'.floatsAt = s.floatsAt := by
    unfold Stdio.floatsAt
    rw [h]
  refine ⟨hfloats, ?_, ?_⟩
  · unfold mapAt
    rw [hfloats]
  · unfold Fills
    rw [hfloats, h]

theorem completeReads_append (t₁ t₂ : StdioTrace d) :
    completeReads (t₁ ++ t₂) = completeReads t₁ ++ completeReads t₂ := List.filterMap_append

section
variable {self self' : StereoUndistort} {s s' : Stdio d} {tr : StdioTrace d} {ret : Int}

/-- The spec of one block: it fails and changes nothing, or copies the floats of the file. -/
theorem exec_loadMap {c : Calibration} {path : String}
    {copyTo : Mat → StereoUndistort → StereoUndistort}
    (hexec : Prog.Exec (stdio d) ((loadMap d c.size path copyTo).run self) s tr (ret, self') s') :
    s'.files = s.files ∧
      (ret ≠ 0 ∧ self' = self ∧ completeReads tr = [] ∨
        ret = 0 ∧ c.Fills s path ∧ self' = copyTo (c.mapAt s path) self ∧
          completeReads tr = [s.floatsAt path]) := by
  obtain ⟨r, self₁, s₁, t₁, t₂, rfl, hread, hrest⟩ := Prog.exec_bindM.mp hexec
  obtain ⟨hread', rfl⟩ := (Prog.exec_lift _ _ _ _ _ _ _ _).mp hread
  have houtcome := readOutcome_of_exec hread'
  have hone : (1 : Int) ≠ 0 := by decide
  rw [completeReads_append]
  cases houtcome with
  | notOpened =>
    obtain ⟨rfl, rfl, rfl, rfl⟩ := Prog.exec_pureM.mp hrest
    exact ⟨rfl, Or.inl ⟨hone, rfl, rfl⟩⟩
  | leftOpen file contents t buf' s' hcontents hnew hbad hreads hfiles hopened =>
    obtain ⟨rfl, rfl, rfl, rfl⟩ := Prog.exec_pureM.mp hrest
    refine ⟨hfiles, Or.inl ⟨hone, rfl, ?_⟩⟩
    rw [completeReads_cons_of_ne (fun _ _ => by simp), hreads]
    rfl
  | read file contents t s' hcontents hlen hok hreads hfiles hopened =>
    obtain ⟨rfl, hret, rfl⟩ := hrest
    obtain ⟨rfl, rfl⟩ := Prod.mk.inj hret
    have hfloats : s.floatsAt path = floatsOf contents.bytes := by
      unfold Stdio.floatsAt
      rw [hcontents]
    have hlength : (floatsOf contents.bytes).length = c.size.width * c.size.height := by
      rw [length_floatsOf]
      exact_mod_cast hlen
    refine ⟨hfiles, Or.inr ⟨rfl, ⟨?_, ?_⟩, ?_, ?_⟩⟩
    · rw [hcontents]
      exact Option.some_ne_none contents
    · rw [hfloats, hlength]
    · -- the buffer is as long as the file
      have hdrop : (Mat.zeros c.size).data.drop (floatsOf contents.bytes).length = [] := by
        rw [hlength]
        exact List.drop_eq_nil_of_le (by rw [Mat.zeros, List.length_replicate])
      show copyTo ⟨_, _, floatsOf contents.bytes ++ _⟩ _ = _
      rw [hdrop, List.append_nil, ← hfloats]
      rfl
    · rw [completeReads_cons_of_ne (fun _ _ => by simp), hreads, hfloats]
      rfl

/-- Going on after one block; the files are those there were at the beginning. -/
theorem exec_loadMap_then {c : Calibration} {path : String}
    {copyTo : Mat → StereoUndistort → StereoUndistort}
    {q : Int → StateT StereoUndistort Io Int} {start : Stdio d} (hstart : s.files = start.files)
    (hexec : Prog.Exec (stdio d) ((loadMap d c.size path copyTo >>= fun ret =>
      if ret ≠ 0 then pure ret else q ret).run self) s tr (ret, self') s') :
    (ret ≠ 0 ∧ self' = self ∧ loadedMaps c tr = []) ∨
      (c.Fills start path ∧ ∃ s₁ t₁, s₁.files = start.files ∧
        loadedMaps c tr = c.mapAt start path :: loadedMaps c t₁ ∧
        Prog.Exec (stdio d) ((q 0).run (copyTo (c.mapAt start path) self)) s₁ t₁ (ret, self')
          s') := by
  obtain ⟨ret₁, self₁, s₁, t₁, t₂, rfl, hload, hrest⟩ := Prog.exec_bindM.mp hexec
  obtain ⟨hfloats, hmap, hfills⟩ := c.congr_files hstart
  unfold loadedMaps
  rw [completeReads_append]
  obtain ⟨hfiles, ⟨hret, rfl, hreads⟩ | ⟨rfl, hfill, rfl, hreads⟩⟩ := exec_loadMap hload
  · rw [if_pos hret] at hrest
    obtain ⟨rfl, rfl, rfl, rfl⟩ := Prog.exec_pureM.mp hrest
    refine Or.inl ⟨hret, rfl, ?_⟩
    rw [hreads]
    rfl
  · rw [if_neg (not_not_intro rfl), hmap] at hrest
    rw [hfills] at hfill
    refine Or.inr ⟨hfill, s₁, t₂, hfiles.trans hstart, ?_, hrest⟩
    rw [hreads, hfloats]
    rfl

end

/-- What a setup has done: the size is set, and the maps that were read have replaced the first
maps of the object. -/
structure SetupSpec (c : Calibration) (s : Stdio d) (o : StereoUndistort) (tr : StdioTrace d)
    (ret : Int) (o' : StereoUndistort) : Prop where
  width : o'.imgWidth = c.size.width
  height : o'.imgHeight = c.size.height
  maps : o'.maps = loadedMaps c tr ++ o.maps.drop (loadedMaps c tr).length
  succeeds : ret = 0 ↔ (loadedMaps c tr).length = 4
  all : ret = 0 → (∀ path ∈ c.paths, c.Fills s path) ∧ o' = c.object s

theorem setupSpec_of_exec {c : Calibration} {s s' : Stdio d} {self self' : StereoUndistort}
    {tr : StdioTrace d} {ret : Int}
    (hexec : Prog.Exec (stdio d) ((setupStereoUndistort d c).run self) s tr (ret, self') s') :
    SetupSpec c s self tr ret self' := by
  -- a failure after some of the maps
  have hfailed (loaded : List Mat) (hlen : loaded.length < 4) (hloaded : loadedMaps c tr = loaded)
      (hret : ret ≠ 0) (hwidth : self'.imgWidth = c.size.width)
      (hheight : self'.imgHeight = c.size.height)
      (hmaps : self'.maps = loaded ++ self.maps.drop loaded.length) :
      SetupSpec c s self tr ret self' := by
    constructor
    · exact hwidth
    · exact hheight
    · rw [hloaded]
      exact hmaps
    · rw [hloaded]
      exact iff_of_false hret (Nat.ne_of_lt hlen)
    · exact fun h => absurd h hret
  unfold setupStereoUndistort at hexec
  rw [StateT.run_bind, StateT.run_modify, pure_bind] at hexec
  -- one block after the other: it fails, or its map is the next one in the object
  obtain ⟨hret, rfl, hloaded⟩ | ⟨hL1, s₁, t₁, hfiles₁, hloaded, hexec₁⟩ :=
    exec_loadMap_then rfl hexec
  · apply hfailed [] (by simp) hloaded hret
    all_goals rfl
  obtain ⟨hret, rfl, hloaded₁⟩ | ⟨hL2, s₂, t₂, hfiles₂, hloaded₁, hexec₂⟩ :=
    exec_loadMap_then hfiles₁ hexec₁
  · rw [hloaded₁] at hloaded
    apply hfailed _ (by simp) hloaded hret
    all_goals rfl
  obtain ⟨hret, rfl, hloaded₂⟩ | ⟨hR1, s₃, t₃, hfiles₃, hloaded₂, hexec₃⟩ :=
    exec_loadMap_then hfiles₂ hexec₂
  · rw [hloaded₁, hloaded₂] at hloaded
    apply hfailed _ (by simp) hloaded hret
    all_goals rfl
  obtain ⟨hret, rfl, hloaded₃⟩ | ⟨hR2, s₄, t₄, hfiles₄, hloaded₃, hexec₄⟩ :=
    exec_loadMap_then hfiles₃ hexec₃
  · rw [hloaded₁, hloaded₂, hloaded₃] at hloaded
    apply hfailed _ (by simp) hloaded hret
    all_goals rfl
  -- all four were read
  obtain ⟨rfl, hret, hself, -⟩ := Prog.exec_pureM.mp hexec₄
  have hobject : self' = c.object s := hself
  rw [hloaded₁, hloaded₂, hloaded₃] at hloaded
  have hmaps : loadedMaps c tr = (c.object s).maps := hloaded
  rw [hobject]
  constructor
  · rfl
  · rfl
  · rw [hmaps]
    rfl
  · rw [hmaps]
    exact iff_of_true hret rfl
  · refine fun _ => ⟨?_, rfl⟩
    simp [Calibration.paths, hL1, hL2, hR1, hR2]

/-! ## All or nothing -/

/-- A call as it went, with the files as they were. -/
structure Setup (d : DataModel) where
  before : Stdio d
  calibration : Calibration
  retval : Int
  trace : StdioTrace d

def setupStep (o : StereoUndistort) (x : Setup d) (o' : StereoUndistort) : Prop :=
  ∃ s', Prog.Exec (stdio d) ((setupStereoUndistort d x.calibration).run o) x.before x.trace
    (x.retval, o') s'

abbrev SetupRun (d : DataModel) := List (Step StereoUndistort (Setup d))

/-- A call that fails changes nothing, and one that returns 0 has loaded all four maps. -/
structure AllOrNothing (x : Step StereoUndistort (Setup d)) : Prop where
  nothing : x.label.retval ≠ 0 → x.post = x.pre
  all : x.label.retval = 0 → (∀ path ∈ x.label.calibration.paths,
      x.label.calibration.Fills x.label.before path) ∧
    x.post = x.label.calibration.object x.label.before

/-- All four files are read, or the object has the size already, and the maps that are read before
the first failure as well. -/
def ReadsWhatIsThere (x : Step StereoUndistort (Setup d)) : Prop :=
  (loadedMaps x.label.calibration x.label.trace).length = 4 ∨
    x.pre.imgWidth = x.label.calibration.size.width ∧
      x.pre.imgHeight = x.label.calibration.size.height ∧
        loadedMaps x.label.calibration x.label.trace <+: x.pre.maps

/-- The size and what `undistort` maps with are those of the object at the beginning, or those of
one calibration that was set up. -/
def OneCalibration (start : StereoUndistort) (run : SetupRun d) (self : StereoUndistort) : Prop :=
  self = start ∨ ∃ x ∈ run, let c := x.label.calibration
    x.label.retval = 0 ∧ (∀ path ∈ c.paths, c.Fills x.label.before path) ∧
      self.imgWidth = c.size.width ∧ self.imgHeight = c.size.height ∧
      ∀ (Image : Type) (imgL imgR : Image), self.undistort imgL imgR =
        (⟨imgL, c.mapAt x.label.before c.L1MatPath, c.mapAt x.label.before c.L2MatPath⟩,
          ⟨imgR, c.mapAt x.label.before c.R1MatPath, c.mapAt x.label.before c.R2MatPath⟩)

section
variable {o o' : StereoUndistort} {run : SetupRun d}

/-- One call is all or nothing exactly if what it reads is there already or all that it reads can be
read. -/
theorem allOrNothing_iff {x : Step StereoUndistort (Setup d)}
    (hstep : setupStep x.pre x.label x.post) : AllOrNothing x ↔ ReadsWhatIsThere x := by
  obtain ⟨s', hexec⟩ := hstep
  have hspec := setupSpec_of_exec hexec
  constructor
  · intro h
    by_cases hret : x.label.retval = 0
    · exact Or.inl (hspec.succeeds.mp hret)
    · have hsame := h.nothing hret
      -- what was read before the failure is in the object now, and so was there before
      refine Or.inr ⟨?_, ?_, ?_⟩
      · rw [← hsame, hspec.width]
      · rw [← hsame, hspec.height]
      · rw [← hsame, hspec.maps]
        exact List.prefix_append _ _
  · intro h
    constructor
    · intro hret
      obtain ⟨hwidth, hheight, hmaps⟩ := h.resolve_left fun hlen => hret (hspec.succeeds.mpr hlen)
      apply StereoUndistort.ext_maps
      · rw [hspec.width, hwidth]
      · rw [hspec.height, hheight]
      · rw [hspec.maps]
        exact List.prefix_iff_eq_append.mp hmaps
    · exact hspec.all

/-- The run lemma: calls that are all or nothing never mix two calibrations. -/
theorem oneCalibration_of_allOrNothing (hrun : Run setupStep o run o')
    (hall : ∀ x ∈ run, AllOrNothing x) : ∀ x ∈ run, OneCalibration o run x.post := by
  have hinv := @Run.invariant _ _ _ (fun v => OneCalibration o run v) _ _ _ hrun (Or.inl rfl) ?_
  · exact fun x hx => (hinv.2 x hx).2
  · intro x hx hpre _
    by_cases hret : x.label.retval = 0
    · obtain ⟨hfills, hobject⟩ := (hall x hx).all hret
      rw [hobject]
      exact Or.inr ⟨x, hx, hret, hfills, rfl, rfl, fun _ _ _ => rfl⟩
    · rw [(hall x hx).nothing hret]
      exact hpre

end

/-- A call against the C library on which nothing fails. -/
def setupOn (c : Calibration) (s : Stdio d) (o : StereoUndistort) :
    Step StereoUndistort (Setup d) :=
  let out := Prog.run (workingStdio d) ((setupStereoUndistort d c).run o) s
  ⟨o, ⟨s, c, out.1.1, Prog.trace (workingStdio d) ((setupStereoUndistort d c).run o) s⟩, out.1.2⟩

theorem setupStep_setupOn (c : Calibration) (s : Stdio d) (o : StereoUndistort) :
    setupStep o (setupOn c s o).label (setupOn c s o).post :=
  ⟨_, (Prog.exec_run_pair (workingStdio d) _ s).mono workingStdio_stdio⟩

/-- Maps of one pixel. -/
def onePixel : Calibration :=
  ⟨⟨1, 1, by decide, by decide, by decide⟩, "mapL1_LE.wav", "mapL2_LE.wav", "mapR1_LE.wav",
    "mapR2_LE.wav"⟩

/-- An object with four maps of one pixel that are zero. -/
def zeroMaps : StereoUndistort := ⟨1, 1, ⟨1, 1, [0]⟩, ⟨1, 1, [0]⟩, ⟨1, 1, [0]⟩, ⟨1, 1, [0]⟩⟩

/-- Of the four files only the first one is there. -/
def firstMapOnly (d : DataModel) : Stdio d where
  files path := if path = "mapL1_LE.wav" then some (fourBytes d) else none
  opened := ∅
  stream _ := ([], 0)

/-- The setup fails, and the first map of the object has been replaced. -/
theorem failed_setup_replaces_first_map :
    ¬ ∀ (d : DataModel) (o o' : StereoUndistort) (run : SetupRun d), Run setupStep o run o' →
      (∀ x ∈ run, AllOrNothing x) ∧ ∀ x ∈ run, OneCalibration o run x.post := by
  intro h
  let x := setupOn onePixel (firstMapOnly .ilp32) zeroMaps
  have hrun : Run setupStep zeroMaps [x] x.post := ⟨rfl, setupStep_setupOn _ _ _, rfl⟩
  have hall : AllOrNothing x := (h _ _ _ _ hrun).1 x (List.mem_singleton_self x)
  have hsame : x.post = x.pre := hall.nothing (by decide)
  exact absurd (congrArg StereoUndistort.L1 hsame) (by decide)

/-- In every run of setups, all are all or nothing, so that `undistort` never runs with the maps of
two calibrations or with maps of another size, exactly if every setup reads all four files, or reads
before the first failure only what the object holds already, its size included. -/
theorem setup_all_or_nothing_iff (d : DataModel) (o o' : StereoUndistort) (run : SetupRun d)
    (hrun : Run setupStep o run o') :
    ((∀ x ∈ run, AllOrNothing x) ∧ ∀ x ∈ run, OneCalibration o run x.post) ↔
      ∀ x ∈ run, ReadsWhatIsThere x := by
  constructor
  · intro h x hx
    exact (allOrNothing_iff (hrun.step_mem x hx)).mp (h.1 x hx)
  · intro hreads
    have hall : ∀ x ∈ run, AllOrNothing x := fun x hx =>
      (allOrNothing_iff (hrun.step_mem x hx)).mpr (hreads x hx)
    exact ⟨hall, oneCalibration_of_allOrNothing hrun hall⟩

/-- A setup whose four files are there. -/
theorem setup_all_or_nothing_iff_one_pixel :
    let x := setupOn onePixel (filledWith (fourBytes .ilp32)) zeroMaps
    AllOrNothing x ∧ x.post.L1.data = [0x3f800000] := by
  intro x
  have hrun : Run setupStep zeroMaps [x] x.post := ⟨rfl, setupStep_setupOn _ _ _, rfl⟩
  have hreads : ReadsWhatIsThere x := Or.inl (by decide)
  have hall := (setup_all_or_nothing_iff .ilp32 _ _ _ hrun).mpr fun y hy =>
    List.mem_singleton.mp hy ▸ hreads
  exact ⟨hall.1 x (List.mem_singleton_self x), by decide⟩

end SimuSound.Stereo
