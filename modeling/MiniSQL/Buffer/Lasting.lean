import MiniSQL.Buffer.Orderly

/-!
# Lasting — what a page shows, whatever the pool evicts

A page shows the bytes of its frame while it is resident and the bytes on disk otherwise.
`Lasting s x G` says that page `x` shows bytes with the property `G`, and would still do so if
`FetchPage` gave its frame to another page.  A frame that is dirty is written back then, so only a
clean frame that nobody pins has to be compared with the disk.  Each call of the pool has one lemma
that says which properties last.
-/

namespace MiniSQL
namespace BufferPoolManager

open Lib

variable {n : Nat} {s s' s₁ : BufferPoolManager n} {f g : Fin n} {p q x : PageId}
variable {G G' : PageData → Prop}

structure Lasting (s : BufferPoolManager n) (x : PageId) (G : PageData → Prop) : Prop where
  shown : G (s.contents x)
  kept : ∀ f, s.pageTable.lookup x = some f → (s.pages f).pinCount = 0 →
    (s.pages f).isDirty = false → G (stored s.diskManager x)

theorem Lasting.mono (h : Lasting s x G) (himp : ∀ d, G d → G' d) : Lasting s x G' :=
  ⟨himp _ h.shown, fun f hl hpin hclean => himp _ (h.kept f hl hpin hclean)⟩

/-- A page that is not resident shows what is on disk. -/
theorem lasting_of_none (hl : s.pageTable.lookup x = none) (h : G (s.contents x)) :
    Lasting s x G := by
  refine ⟨h, fun f hf => ?_⟩
  rw [hl] at hf
  cases hf

/-- A page in a frame that is pinned or dirty. -/
theorem lasting_of_held (hl : s.pageTable.lookup x = some f)
    (hheld : (s.pages f).pinCount = 0 → (s.pages f).isDirty = true) (h : G (s.contents x)) :
    Lasting s x G := by
  refine ⟨h, fun g hg hpin hclean => ?_⟩
  rw [hl] at hg
  obtain rfl := Option.some.inj hg
  rw [hheld hpin] at hclean
  cases hclean

/-- Nothing that page `x` depends on has changed. -/
theorem Lasting.congr (h : Lasting s x G) (htable : s'.pageTable.lookup x = s.pageTable.lookup x)
    (hpage : ∀ f, s.pageTable.lookup x = some f → s'.pages f = s.pages f)
    (hstored : stored s'.diskManager x = stored s.diskManager x) : Lasting s' x G := by
  cases hl : s.pageTable.lookup x with
  | none =>
      rw [hl] at htable
      refine lasting_of_none htable ?_
      rw [contents_of_none htable, hstored, ← contents_of_none hl]
      exact h.shown
  | some f =>
      rw [hl] at htable
      have hsame := hpage f hl
      refine ⟨?_, fun g hg hpin hclean => ?_⟩
      · rw [contents_of_lookup htable, hsame, ← contents_of_lookup hl]
        exact h.shown
      · rw [htable] at hg
        obtain rfl := Option.some.inj hg
        rw [hsame] at hpin hclean
        rw [hstored]
        exact h.kept f hl hpin hclean

/-! ## A frame is taken -/

/-- Frame `f` is taken for page `p`.  The page that was in it is not resident then, and nothing that
another page depends on changes. -/
theorem TableInv.taken (htab : TableInv s) (page : Page)
    (hpages : s'.pages = Function.update s.pages f page)
    (htable : s'.pageTable = (s.pageTable.erase (s.pages f).pageId).insert p f)
    (hothers : ∀ y, 0 ≤ y.toInt → s.pageTable.lookup y ≠ some f →
      stored s'.diskManager y = stored s.diskManager y)
    (hx : 0 ≤ x.toInt) (hxp : x ≠ p) :
    (s.pageTable.lookup x = some f ∧ s'.pageTable.lookup x = none) ∨
      (s.pageTable.lookup x ≠ some f ∧ s'.pageTable.lookup x = s.pageTable.lookup x ∧
        (∀ g, s.pageTable.lookup x = some g → s'.pages g = s.pages g) ∧
        stored s'.diskManager x = stored s.diskManager x) := by
  have hl := lookup_load htable (q := x)
  rw [if_neg hxp] at hl
  by_cases hold : x = (s.pages f).pageId
  · rw [if_pos hold] at hl
    exact Or.inl ⟨(htab.lookup_iff hx).mpr hold.symm, hl⟩
  · rw [if_neg hold] at hl
    have hne : s.pageTable.lookup x ≠ some f := fun hs => hold ((htab x f).mp hs).2.symm
    refine Or.inr ⟨hne, hl, fun g hg => ?_, hothers x hx hne⟩
    have hgf : g ≠ f := by
      rintro rfl
      exact hne hg
    rw [hpages, Function.update_of_ne hgf]

/-- `FetchPage` writes back the bytes of the frame it takes, or finds it clean. -/
theorem Lasting.evicted (h : Lasting s x G) (htab : TableInv s)
    (hl : s.pageTable.lookup x = some f) (hpin : (s.pages f).pinCount = 0) {dm : DiskManager}
    (hwrite : writeBack (s.pages f) (s.pages f).data s.diskManager = .ok dm) (hx : 0 ≤ x.toInt) :
    G (stored dm x) := by
  rw [stored_writeBack hwrite hx]
  split
  · rw [← contents_of_lookup hl]
    exact h.shown
  · rename_i hnot
    have hclean : (s.pages f).isDirty = false := by
      rw [← Bool.not_eq_true]
      exact fun hdirty => hnot ⟨hdirty, ((htab x f).mp hl).2.symm⟩
    exact h.kept f hl hpin hclean

/-! ## The calls -/

theorem Lasting.fetchPage (h : Lasting s x G) (hq : QueueInv s) (hx : 0 ≤ x.toInt)
    (hok : s.fetchPage p = .ok (some f, s')) : Lasting s' x G := by
  have hloaded := hq.loaded hok
  by_cases hxp : x = p
  · -- The page itself is pinned now.
    subst hxp
    refine lasting_of_held hloaded.lookup (fun hpin => ?_) ?_
    · rw [hloaded.frame_pins] at hpin
      cases hpin
    · rw [contents_of_lookup hloaded.lookup, hloaded.data]
      exact h.shown
  · rcases fetchPage_inversion hok with ⟨hnone, _⟩ | ⟨g, hg, hl, rfl⟩ |
      ⟨g, s₁, dm, hg, _, hpick, hwrite, _, hs'⟩
    · cases hnone
    · obtain rfl := Option.some.inj hg
      refine h.congr rfl (fun g hg => ?_) rfl
      have hgf : g ≠ f := hq.table.frame_ne hl hg hxp
      exact Function.update_of_ne hgf _ _
    · obtain rfl := Option.some.inj hg
      have hdisk : s'.diskManager = dm := by rw [hs']
      have hothers : ∀ y, 0 ≤ y.toInt → s.pageTable.lookup y ≠ some f →
          stored s'.diskManager y = stored s.diskManager y := fun y hy hne => by
        rw [hdisk]
        exact hq.table.writeBack_others hwrite hy hne
      rcases hq.table.taken _ (by rw [hs']) (by rw [hs']) hothers hx hxp with
        ⟨hl, hnone⟩ | ⟨_, htable, hpage, hstored⟩
      · refine lasting_of_none hnone ?_
        rw [contents_of_none hnone, hdisk]
        exact h.evicted hq.table hl (hq.picks hpick).unpinned hwrite hx
      · exact h.congr htable hpage hstored

/-- A visit gives the page back as it was. -/
theorem Lasting.visit (h : Lasting s x G) (hframes : FrameInv s) (hx : 0 ≤ x.toInt)
    (hvisit : s.visit p = .ok (some f, s')) : Lasting s' x G := by
  rcases visit_inversion hframes hvisit with ⟨_, r, rfl, _⟩ |
    ⟨hnone, s₀, dm, r, hpick, hwrite, _, hs'⟩
  · exact ⟨h.shown, h.kept⟩
  · have htab := hframes.tableInv
    have hdisk : s'.diskManager = dm := by rw [hs', loaded]
    have hothers : ∀ y, 0 ≤ y.toInt → s.pageTable.lookup y ≠ some f →
        stored s'.diskManager y = stored s.diskManager y := fun y hy hne => by
      rw [hdisk]
      exact htab.writeBack_others hwrite hy hne
    by_cases hxp : x = p
    · subst hxp
      have hshown : G (stored s'.diskManager x) := by
        rw [hothers x hx (by simp [hnone]), ← contents_of_none hnone]
        exact h.shown
      have hl : s'.pageTable.lookup x = some f := by
        rw [hs', lookup_loaded, if_pos rfl]
      refine ⟨?_, fun g _ _ _ => hshown⟩
      rw [contents_of_lookup hl, hs', loaded_self, ← hdisk]
      exact hshown
    · rcases htab.taken _ (by rw [hs', loaded]) (by rw [hs', loaded]) hothers hx hxp with
        ⟨hl, hnone'⟩ | ⟨_, htable, hpage, hstored⟩
      · refine lasting_of_none hnone' ?_
        rw [contents_of_none hnone', hdisk]
        exact h.evicted htab hl (hframes.queueInv.picks hpick).unpinned hwrite hx
      · exact h.congr htable hpage hstored

/-- A page given back as changed is marked, so its frame is written back later. -/
theorem Lasting.unpinDirty (h : Lasting s x G) (htab : TableInv s) (q : PageId) :
    Lasting (s.unpinPage q true).2 x G := by
  rcases hu : s.unpinPage q true with ⟨done, s'⟩
  rcases unpinPage_inversion hu with ⟨_, rfl⟩ | ⟨f, hl, hs'⟩
  · exact h
  · have htable : s'.pageTable = s.pageTable := by rw [hs']
    by_cases hxq : x = q
    · subst hxq
      refine lasting_of_held (f := f) (by rw [htable]; exact hl) (fun _ => ?_) ?_
      · simp only [hs', Function.update_self, Bool.or_true]
      · rw [htab.contents_touch hl _ (by rw [hs']) htable (by rw [hs']), if_pos rfl,
          ← contents_of_lookup hl]
        exact h.shown
    · refine h.congr (by rw [htable]) (fun g hg => ?_) (by rw [hs'])
      simp only [hs', Function.update_of_ne (htab.frame_ne hl hg hxq)]

/-- A page that is not in the frame `NewPage` takes. -/
theorem Lasting.newPage_other (h : Lasting s x G) (htab : TableInv s)
    (hdisk : DiskManager.Inv s.diskManager) (hx : 0 ≤ x.toInt) (hxq : x ≠ q)
    (hne : s.pageTable.lookup x ≠ some f) (hnew : s.newPage = .ok (some (q, f), s')) :
    Lasting s' x G := by
  rcases newPage_inversion hnew with
    ⟨hnone, _⟩ | ⟨q', f', s₁, dm₁, dm₂, heq, _, halloc, hwrite, hs'⟩
  · cases hnone
  · cases heq
    have hothers : ∀ y, 0 ≤ y.toInt → s.pageTable.lookup y ≠ some f →
        stored s'.diskManager y = stored s.diskManager y := fun y hy hy' => by
      rw [hs', htab.writeBack_others hwrite hy hy', stored_allocatePage hdisk halloc hy]
    rcases htab.taken _ (by rw [hs']) (by rw [hs']) hothers hx hxq with
      ⟨hl, _⟩ | ⟨_, htable, hpage, hstored⟩
    · exact absurd hl hne
    · exact h.congr htable hpage hstored

/-- `NewPage` writes zeros for a dirty frame it takes. -/
theorem Lasting.newPage (h : Lasting s x G) (hpool : PoolInv s) (hx : 0 ≤ x.toInt) (hxq : x ≠ q)
    (hnew : s.newPage = .ok (some (q, f), s')) :
    Lasting s' x G ∨ Lasting s' x (· = Buf.zero PAGE_SIZE) := by
  by_cases hl : s.pageTable.lookup x = some f
  · have hid := hpool.frames.pageId hl
    rcases newPage_inversion hnew with ⟨hnone, _⟩ | ⟨q', f', s₁, dm₁, dm₂, heq, hpick, halloc,
      hwrite, hs'⟩
    · cases hnone
    · cases heq
      have hnone : s'.pageTable.lookup x = none := by
        rw [lookup_load (s := s) (p := q) (f := f) (by rw [hs']), if_neg hxq, if_pos hid.2.symm]
      have hdisk : s'.diskManager = dm₂ := by rw [hs']
      have hstored := stored_writeBack hwrite hx
      split at hstored
      · refine Or.inr (lasting_of_none hnone ?_)
        rw [contents_of_none hnone, hdisk, hstored]
      · rename_i hnot
        have hclean : (s.pages f).isDirty = false := by
          rw [← Bool.not_eq_true]
          exact fun hdirty => hnot ⟨hdirty, hid.2.symm⟩
        refine Or.inl (lasting_of_none hnone ?_)
        rw [contents_of_none hnone, hdisk, hstored, stored_allocatePage hpool.disk halloc hx]
        exact h.kept f hl (hpool.frames.queueInv.picks hpick).unpinned hclean
  · exact Or.inl (h.newPage_other hpool.frames.tableInv hpool.disk hx hxq hl hnew)

theorem write_contents_self (hl : s.pageTable.lookup p = some f) (data : PageData) :
    (s.write f data).contents p = data := by
  have hl' : (s.write f data).pageTable.lookup p = some f := hl
  rw [contents_of_lookup hl']
  simp [BufferPoolManager.write, setPage]

/-- Bytes stored in the frame of another page. -/
theorem Lasting.write_other (h : Lasting s x G) (htab : TableInv s)
    (hl : s.pageTable.lookup p = some f) (hxp : x ≠ p) (data : PageData) :
    Lasting (s.write f data) x G :=
  h.congr rfl (fun _ hg => write_ne s data (htab.frame_ne hl hg hxp)) rfl

/-- Bytes stored in the frame of the page itself, marked or not. -/
theorem Lasting.write_self (h : Lasting s p G) (hl : s.pageTable.lookup p = some f)
    {data : PageData} (hdata : G data) : Lasting (s.write f data) p G := by
  refine ⟨?_, fun g hg hpin hclean => ?_⟩
  · rw [write_contents_self hl]
    exact hdata
  · rw [write_pinCount] at hpin
    rw [write_isDirty] at hclean
    exact h.kept g hg hpin hclean

/-- Bytes stored in the frame of a page that is pinned. -/
theorem lasting_write_pinned (hl : s.pageTable.lookup p = some f)
    (hpin : (s.pages f).pinCount ≠ 0) {data : PageData} (hdata : G data) :
    Lasting (s.write f data) p G := by
  refine lasting_of_held (f := f) hl (fun hzero => ?_) ?_
  · rw [write_pinCount] at hzero
    exact absurd hzero hpin
  · rw [write_contents_self hl]
    exact hdata

theorem Written.lasting_self {data : PageData} (h : Written s p f data s')
    (hl : s.pageTable.lookup p = some f) (hdata : G data) : Lasting s' p G := by
  have hl' : s'.pageTable.lookup p = some f := by
    rw [h.table]
    exact hl
  refine lasting_of_held hl' (fun _ => by rw [h.page]) ?_
  rw [h.contents, if_pos rfl]
  exact hdata

theorem Written.lasting_other {data : PageData} (h : Written s p f data s') (htab : TableInv s)
    (hl : s.pageTable.lookup p = some f) (hxp : x ≠ p) (hx : Lasting s x G) : Lasting s' x G :=
  hx.congr (by rw [h.table]) (fun _ hg => h.others _ (htab.frame_ne hl hg hxp)) (by rw [h.disk])

/-! ## Pages that may lose a pin -/

/-- `Lasting` of a page that would last also without its pins. -/
structure Firm (s : BufferPoolManager n) (x : PageId) (G : PageData → Prop) : Prop where
  shown : G (s.contents x)
  kept : ∀ f, s.pageTable.lookup x = some f → (s.pages f).isDirty = false →
    G (stored s.diskManager x)

theorem Firm.lasting (h : Firm s x G) : Lasting s x G :=
  ⟨h.shown, fun f hl _ => h.kept f hl⟩

/-- A page that lasts is firm when its frame is not pinned, is dirty or holds the disk's bytes. -/
theorem Lasting.firm (h : Lasting s x G)
    (hheld : ∀ f, s.pageTable.lookup x = some f → (s.pages f).pinCount ≠ 0 →
      (s.pages f).isDirty = false → stored s.diskManager x = (s.pages f).data) : Firm s x G := by
  refine ⟨h.shown, fun f hl hclean => ?_⟩
  by_cases hpin : (s.pages f).pinCount = 0
  · exact h.kept f hl hpin hclean
  · rw [hheld f hl hpin hclean, ← contents_of_lookup hl]
    exact h.shown

/-- Only pins have changed, and dirty flags from clear to set. -/
theorem Firm.congr (h : Firm s x G) (htable : s'.pageTable.lookup x = s.pageTable.lookup x)
    (hpage : ∀ f, s.pageTable.lookup x = some f → (s'.pages f).data = (s.pages f).data ∧
      ((s'.pages f).isDirty = false → (s.pages f).isDirty = false))
    (hstored : stored s'.diskManager x = stored s.diskManager x) : Firm s' x G := by
  refine ⟨?_, fun f hl hclean => ?_⟩
  · have hshown := h.shown
    cases hl : s.pageTable.lookup x with
    | none =>
        rw [hl] at htable
        rwa [contents_of_none htable, hstored, ← contents_of_none hl]
    | some f =>
        rw [hl] at htable
        rwa [contents_of_lookup htable, (hpage f hl).1, ← contents_of_lookup hl]
  · rw [htable] at hl
    rw [hstored]
    exact h.kept f hl ((hpage f hl).2 hclean)

theorem Firm.unpinPage (h : Firm s x G) (q : PageId) (isDirty : Bool) :
    Firm (s.unpinPage q isDirty).2 x G := by
  rcases hu : s.unpinPage q isDirty with ⟨done, s'⟩
  rcases unpinPage_inversion hu with ⟨_, rfl⟩ | ⟨f, _, hs'⟩
  · exact h
  · refine h.congr (by rw [hs']) (fun g _ => ?_) (by rw [hs'])
    by_cases hgf : g = f
    · subst hgf
      simp only [hs', Function.update_self, true_and]
      exact fun hclean => (Bool.or_eq_false_iff.mp hclean).1
    · simp only [hs', Function.update_of_ne hgf, true_and]
      exact id

/-- A page in the frame `FetchPage` takes is written back or as on disk, so it stays as it is. -/
theorem Firm.fetchPage (h : Firm s x G) (hq : QueueInv s) (hx : 0 ≤ x.toInt)
    (hok : s.fetchPage p = .ok (some f, s')) : Firm s' x G := by
  refine ⟨(h.lasting.fetchPage hq hx hok).shown, fun g hg hclean => ?_⟩
  rcases fetchPage_inversion hok with ⟨hnone, _⟩ | ⟨g', heq, hl, rfl⟩ |
    ⟨g', s₁, dm, heq, hnone, hpick, hwrite, _, hs'⟩
  · cases hnone
  · obtain rfl := Option.some.inj heq
    refine h.kept g hg ?_
    by_cases hgf : g = f
    · subst hgf
      simpa only [Function.update_self] using hclean
    · simpa only [Function.update_of_ne hgf] using hclean
  · obtain rfl := Option.some.inj heq
    have hdisk : s'.diskManager = dm := by rw [hs']
    have hothers : ∀ y, 0 ≤ y.toInt → s.pageTable.lookup y ≠ some f →
        stored s'.diskManager y = stored s.diskManager y := fun y hy hne => by
      rw [hdisk]
      exact hq.table.writeBack_others hwrite hy hne
    by_cases hxp : x = p
    · -- The page itself was not resident, so it showed what is on disk.
      subst hxp
      rw [hothers x hx (by simp [hnone]), ← contents_of_none hnone]
      exact h.shown
    · rcases hq.table.taken _ (by rw [hs']) (by rw [hs']) hothers hx hxp with
        ⟨_, hgone⟩ | ⟨_, htable, hpage, hstored⟩
      · rw [hgone] at hg
        cases hg
      · rw [htable] at hg
        rw [hpage g hg] at hclean
        rw [hstored]
        exact h.kept g hg hclean

end BufferPoolManager
end MiniSQL
