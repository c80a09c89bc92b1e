import LeftHookRoll.Connection
import LeftHookRoll.ResponseFrame

/-!
# What `buildErrorPage` and `triggerError` leave

`NewPage`: a response built anew, of which nothing is sent. When no system call on temporary files
fails, `buildErrorPage` gives one whatever the response was before, and `triggerError` brings the
connection to `WRITING`; neither sends a byte.
-/

namespace LeftHookRoll

open Eff

/-- `w'` differs from `w` in the bookkeeping of system calls, temporary files and paths only. -/
def World.Silent (w w' : World) : Prop :=
  w' = { w with tick := w'.tick, fileCounter := w'.fileCounter, tmp := w'.tmp, calls := w'.calls }

namespace World.Silent
variable {w w' w'' : World}

theorem refl (w : World) : Silent w w := rfl

theorem trans (h : Silent w w') (h' : Silent w' w'') : Silent w w'' := by
  rw [Silent] at h h' ⊢
  rw [h', h]

theorem of_quiet (h : w.Quiet w') : Silent w w' := by
  rw [Silent, h.eq]

theorem outbox_eq (h : Silent w w') : w'.outbox = w.outbox := by rw [h]

theorem sigpipe_eq (h : Silent w w') : w'.sigpipe = w.sigpipe := by rw [h]

theorem activePids_eq (h : Silent w w') : w'.activePids = w.activePids := by rw [h]

end World.Silent

instance : IsPreorder World World.Silent where
  refl := World.Silent.refl
  trans _ _ _ := World.Silent.trans

theorem silent_of_local {σ α : Type} {m : Method σ α} (h : Moves (OnWorld World.Local) m) :
    Moves (OnWorld World.Silent) m := by
  refine h.mono fun s s' hl => ?_
  rw [OnWorld, World.Local] at hl
  rw [OnWorld, World.Silent, hl]

namespace Response

variable {sys : Sys} {r r' r'' : Response} {w : World}

/-! ### What an error page does to the world, on every system -/

theorem silent_onStore {α : Type} {m : Method DataStore α} (h : Moves (OnWorld World.Local) m) :
    Moves (OnWorld World.Silent) (onStore m) := (silent_of_local h).onWorld

theorem silent_finalizeSuccess (sys : Sys) (contentType : Bytes) :
    Moves (OnWorld World.Silent) (finalizeSuccess sys contentType) := by
  rintro ⟨r, w⟩
  obtain ⟨r', hrun, -⟩ := finalizeSuccess_eq sys contentType r w
  rw [OnWorld, hrun]
  exact .refl w

theorem silent_appendPage (sys : Sys) (content : Bytes) : Moves (OnWorld World.Silent) (appendPage sys content) := by
  induction content using appendPage.induct with
  | case1 content ih =>
    rw [appendPage]
    refine (silent_of_local moves_sysTick).bind fun t => ?_
    rcases sys.readFile t 4096 with _ | k
    · exact Moves.pure _
    simp only
    split
    · exact Moves.pure _
    · rename_i hgot
      exact (silent_onStore (DataStore.moves_append sys _)).bind fun _ => ih k hgot

theorem silent_openErrorPage (sys : Sys) (customPath : Bytes) :
    Moves (OnWorld World.Silent) (openErrorPage sys customPath) := by
  intro s
  unfold openErrorPage
  split
  · exact .refl s.2
  · rfl

theorem silent_buildErrorPage (sys : Sys) (code : Bytes) (config : ServerConf) :
    Moves (OnWorld World.Silent) (buildErrorPage sys code config) := by
  refine (silent_onStore DataStore.moves_clear).bind fun _ => (Moves.modObj_onWorld _ _).bind fun _ => ?_
  refine (silent_openErrorPage sys _).bind fun page => Moves.bind ?_ fun _ => silent_finalizeSuccess sys _
  rcases page with _ | content
  · exact silent_onStore (DataStore.moves_append sys _)
  · exact silent_appendPage sys content

/-! ### Without failures -/

/-- A response that was just built: nothing is sent of it. -/
structure NewPage (code : Bytes) (r : Response) (w : World) : Prop where
  statusCode : r.statusCode = code
  state : r.responseState = .SENDING_RES_HEAD
  header : r.headerBuffer ≠ []
  unsent : r.totalBytesSent = 0
  noFile : r.fileFd = none
  empty : r.streamBufLen = 0
  phase : r.buildPhase = .BUILD_DONE
  holds : ∃ body, r.responseDataStore.Holds w body

/-- A configured page is copied into the store as far as it can be read. -/
theorem appendPage_eq (hs : sys.NoFail) (content : Bytes) {data : Bytes}
    (h : r.responseDataStore.Holds w data) :
    ∃ d w' data', appendPage sys content (r, w) = (.ok (), { r with responseDataStore := d }, w') ∧
      d.Holds w' data' ∧ w.Quiet w' := by
  induction content using appendPage.induct generalizing r w data with
  | case1 content ih =>
    have hq := (World.Quiet.refl w).tick (w.tick + 1)
    rw [appendPage]
    simp only [sysTick_bind]
    rcases sys.readFile w.tick 4096 with _ | k
    · exact ⟨_, _, data, rfl, h.mono hq.tmp, hq⟩
    by_cases hnil : content.take (min (k + 1) 4096) = []
    · simp only [hnil, dite_true]
      exact ⟨_, _, data, rfl, h.mono hq.tmp, hq⟩
    simp only [hnil, dite_false]
    obtain ⟨d, w₁, happ, hd, hq₁, -⟩ := DataStore.append_spec hs (h.mono hq.tmp) hnil
    obtain ⟨d', w₂, data', happ', hd', hq₂⟩ := ih k hnil (r := { r with responseDataStore := d }) hd
    refine ⟨d', w₂, data', ?_, hd', (hq.trans hq₁).trans hq₂⟩
    rw [Eff.bind_ok (onStore_eq happ), happ']

theorem fillErrorPage_eq (hs : sys.NoFail) (code : Bytes) (page : Option Bytes) {data : Bytes}
    (h : r.responseDataStore.Holds w data) :
    ∃ d w' data', fillErrorPage sys code page (r, w) = (.ok (), { r with responseDataStore := d }, w') ∧
      d.Holds w' data' ∧ w.Quiet w' := by
  rcases page with _ | content
  · obtain ⟨d, w', happ, hd, hq, -⟩ := DataStore.append_spec hs h
      (show buildDefaultErrorHtml code (lookupReasonPhrase code) ≠ [] by
        simp [buildDefaultErrorHtml, ascii])
    exact ⟨d, w', _, onStore_eq happ, hd, hq⟩
  · exact appendPage_eq hs content h

theorem openErrorPage_eq (sys : Sys) (path : Bytes) (r : Response) (w : World) :
    ∃ page w', openErrorPage sys path (r, w) = (.ok page, r, w') ∧ w.Silent w' ∧ w.tmp ⊆ w'.tmp := by
  by_cases hp : path = []
  · exact ⟨none, w, by simp [openErrorPage, hp], rfl, subset_rfl⟩
  · refine ⟨sys.openRead w.tick (cstr path),
      { w with tick := w.tick + 1, calls := .errorPage (cstr path) :: w.calls }, ?_, rfl, subset_rfl⟩
    simp only [openErrorPage, hp, if_false, logCall, Eff.modWorld_bind, sysTick_bind, Eff.pure_apply]

/-- The error page for `code`, whatever the response was before. -/
theorem buildErrorPage_eq (hs : sys.NoFail) (code : Bytes) (config : ServerConf) (r : Response)
    (w : World) : ∃ r' w', buildErrorPage sys code config (r, w) = (.ok (), r', w') ∧
      NewPage code r' w' ∧ r'.writeBufferSize = r.writeBufferSize ∧ r'.cgiInstance = r.cgiInstance ∧
      w.Silent w' := by
  obtain ⟨d, hd⟩ : ∃ d, d = { r.responseDataStore with
    dataBuffer := [], currentSize := 0, readOffset := 0, mode := .RAM, fileFd := none
    absolutePath := none } := ⟨_, rfl⟩
  obtain ⟨w₀, hw₀⟩ : ∃ w₀, w₀ = { w with tmp := r.responseDataStore.absolutePath.elim w.tmp w.tmp.erase } :=
    ⟨_, rfl⟩
  have hclear : onStore DataStore.clear (r, w) = (.ok (), { r with responseDataStore := d }, w₀) := by
    rw [hd, hw₀]
    exact onStore_eq DataStore.clear_eq
  obtain ⟨page, w₁, hopen, hs₁, ht₁⟩ := openErrorPage_eq sys (config.getErrorPagePath code)
    (resetForError code { r with responseDataStore := d }) w₀
  have hd₁ : d.Holds w₁ [] := hd ▸ DataStore.clear_holds r.responseDataStore w₁
  have hs₀ : w.Silent w₀ := by rw [hw₀]; rfl
  obtain ⟨d', w₂, data, hbody, hd', hq⟩ :=
    fillErrorPage_eq hs code page (r := resetForError code { r with responseDataStore := d }) hd₁
  obtain ⟨r', hfin, hr'⟩ := finalizeSuccess_eq sys (ascii "text/html")
    (resetForError code { r with responseDataStore := d' }) w₂
  refine ⟨startHead r', w₂, ?_, ?_, ?_, ?_, (hs₀.trans hs₁).trans (.of_quiet hq)⟩
  · simp only [buildErrorPage]
    rw [Eff.bind_ok hclear, Eff.modObj_bind, Eff.bind_ok hopen, Eff.bind_ok hbody]
    exact hfin
  · rw [SameButHeaders] at hr'
    rw [hr']
    exact ⟨rfl, rfl, generateHeaderString_ne_nil _, rfl, rfl, rfl, rfl, data, hd'⟩
  · rw [hr']; rfl
  · rw [hr']; rfl

end Response

namespace Connection

variable {sys : Sys}

/-- The connection with an answer to send. -/
def answered (r : Response) (c : Connection) : Connection := { c with response := r, state := .WRITING }

/-- The connection answers with an error and nothing of the answer is sent. -/
theorem triggerError_eq (hs : sys.NoFail) (code : Int) (c : Connection) (w : World) :
    ∃ r w', triggerError sys code (c, w) = (.ok (), answered r c, w') ∧
      r.statusCode = decimalInt code ∧ w.Silent w' := by
  rcases hconf : c.serverConf with _ | conf
  · refine ⟨Response.setResponsePhrase (ascii "Error")
      (Response.setStatusCode (decimalInt code) c.response), w, ?_, rfl, .refl w⟩
    simp only [triggerError, Eff.obj_bind, hconf]
    rfl
  · obtain ⟨r, w', hb, hp, -, -, hw⟩ := Response.buildErrorPage_eq hs (decimalInt code) conf c.response w
    refine ⟨r, w', ?_, hp.statusCode, hw⟩
    simp only [triggerError, Eff.obj_bind, hconf, onResponse]
    rw [Eff.bind_ok (Eff.on_eq hb)]
    rfl

end Connection

end LeftHookRoll
