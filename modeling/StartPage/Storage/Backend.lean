import StartPage.Error
import StartPage.Text.Bytes

/-!
What the store needs of the place where bytes live: one value under each key, read and
written whole. A key never written reads as absent. Failed operations may still have changed
the place.
-/
namespace StartPage

class Backend (Place : Type) where
  read : Place → String → Except StorageError (Option Bytes)
  write : Place → String → Bytes → Place × Except StorageError Unit

end StartPage
