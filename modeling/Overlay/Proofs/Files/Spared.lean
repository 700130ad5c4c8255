import Overlay.Proofs.Files.ReadBack

/-! Changes of files that spare a place: making directories spares every place, and what else is
done to a file spares all other places. -/
namespace Overlay.Files
variable {t t' t'' : Files} {path : String} {place here : Place} {content : Bytes}

/-- A change after which a place has the file that it had before, or none as before. -/
structure Spares (place : Place) (t t' : Files) : Prop extends BringsNothing place t t' where
  left : ∀ content, t.node? place = some (.file content) → t'.node? place = some (.file content)

namespace Spares

theorem refl (place : Place) (t : Files) : Spares place t t := ⟨.refl place t, fun _ => id⟩

theorem trans (first : Spares place t t') (second : Spares place t' t'') : Spares place t t'' where
  toBringsNothing := first.toBringsNothing.trans second.toBringsNothing
  left content held := second.left content (first.left content held)

theorem set_directory (missing : t.node? here = none) :
    Spares place t (t.set here (.directory .empty)) where
  toBringsNothing := .set_directory t here
  left content held := by
    refine Listing.at?_put_other ?vacant ?elsewhere held
    case vacant =>
      rintro ⟨inner, taken⟩
      exact Option.some_ne_none _ (taken.symm.trans missing)
    case elsewhere =>
      rintro rfl
      exact Option.some_ne_none _ (held.symm.trans missing)

theorem write (written : t.write path content = .ok t') (elsewhere : t.destination path ≠ place) :
    Spares place t t' where
  toBringsNothing := .write written elsewhere
  left content held := by
    obtain ⟨-, here, followed, vacant, rfl⟩ := cases_of_write written
    rw [← eq_destination_of_place followed] at elsewhere
    exact Listing.at?_put_other (fun ⟨inner, taken⟩ => vacant inner taken) elsewhere.symm held

theorem remove (removed : t.remove path = .ok t') (elsewhere : t.destination path ≠ place) :
    Spares place t t' where
  toBringsNothing := .remove removed
  left content held := by
    obtain ⟨single, rfl⟩ := cases_of_remove removed
    exact Listing.at?_remove_other single elsewhere.symm held

theorem rename {target : String} (renamed : t.rename path target = .ok t')
    (elsewhere : t.destination target ≠ place) (elsewhere' : t.destination path ≠ place) :
    Spares place t t' := by
  obtain ⟨content, -, renamed⟩ := bind_eq_ok_iff.1 renamed
  obtain ⟨written, wrote, removed⟩ := bind_eq_ok_iff.1 renamed
  have first : Spares place t written := .write wrote elsewhere
  rw [← destination_congr first.working] at elsewhere'
  exact first.trans (.remove removed elsewhere')

theorem keptByMaking (place : Place) : KeptByMaking (fun _ => True) (Spares place) where
  refl := refl place
  trans := trans
  next _ _ := trivial
  set _ := set_directory

theorem makeDirectory (t : Files) (path : String) : Spares place t (t.makeDirectory path).2 :=
  (keptByMaking place).makeDirectory t path trivial

theorem makeParent (t : Files) (path : String) : Spares place t (t.makeParent path).2 :=
  (keptByMaking place).makeParent t path fun _ => trivial

end Spares
end Overlay.Files
