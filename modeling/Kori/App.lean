import Kori.Auth.Sessions
import Kori.Transactions

/-!
# The application

Any number of requests, on any number of server instances, over one PostgreSQL
database and one Redis.
-/

namespace Kori

open Foundation

/-- The handler of a request, with everything in front of it. -/
def handle (env : Env) : Call → Action Unit
  | .transfer request => transfer env request
  | .deactiveWallet actor walletId =>
      respond (WalletsController.deactiveWallet actor walletId)
  | .activeWallet actor walletId =>
      respond (WalletsController.activeWallet actor walletId)
  | .suspend actor targetUserId =>
      respond (AccountsController.suspend actor targetUserId)
  | .reactivate actor targetUserId =>
      respond (AccountsController.reactivate actor targetUserId)
  | .sendOtp dto => respond (AuthController.sendOtp env dto)
  | .verifyOtp dto => respond (AuthController.verifyOtp env dto)
  | .register dto => respond (AuthController.register env dto)
  | .registerBusiness dto => respond (AuthController.registerBusiness env dto)
  | .login dto => respond (AuthController.login env dto)
  | .refresh token => respond (AuthController.refresh token)
  | .logout token => respond (AuthController.logout token)
  | .revokeTrustedDevice actor deviceRecordId =>
      respond (AuthController.revokeDevice actor deviceRecordId)
  | .approveBusinessAccount actor dto =>
      respond (AuthController.approveBusiness env actor dto)

abbrev State := Conf Pid Call Reply Shared

abbrev KoriWorld := World Pid Call Reply Exn Shared Op Op.Ans

abbrev KoriMove := Move Pid Call Choice RedisKey

/-- The application as a system of interleaved requests. -/
def kori (env : Env) : System Pid Call Reply Exn Shared Choice RedisKey Op Op.Ans where
  code := handle env
  exec := Shared.exec env
  abort := Shared.abort
  tick := Shared.expire

end Kori
