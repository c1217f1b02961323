/-!
# Opcodes

Every kind of block that a script can hold, with the name under which a project stores it, the category it belongs to,
and the three classes that decide how blocks nest: hats, blocks with a body, and blocks with an else branch.
-/

namespace ScratchScript

/-- The palette that a block belongs to. -/
inductive Category
  | event | control | motion | looks | sound | sensing | operator | data | lists | pen
  deriving DecidableEq, Repr

/-- The kind of a block. -/
inductive Opcode
  | whenFlagClicked
  | whenKeyPressed
  | whenThisSpriteClicked
  | whenBroadcastReceived
  | broadcast
  | broadcastAndWait
  | startAsClone
  | wait
  | repeatTimes
  | repeatUntil
  | forever
  | ifThen
  | ifElse
  | stop
  | createCloneOf
  | deleteThisClone
  | moveSteps
  | turnRight
  | turnLeft
  | goToXY
  | goTo
  | glideSecsToXY
  | pointInDirection
  | pointTowards
  | setX
  | setY
  | changeXBy
  | changeYBy
  | ifOnEdgeBounce
  | sayForSecs
  | say
  | thinkForSecs
  | think
  | showSprite
  | hideSprite
  | switchCostumeTo
  | nextCostume
  | switchBackdropTo
  | changeSizeBy
  | setSizeTo
  | goToFrontBack
  | playUntilDone
  | startSound
  | stopAllSounds
  | changeVolumeBy
  | setVolumeTo
  | askAndWait
  | resetTimer
  | touchingObject
  | touchingColor
  | keyPressed
  | mouseDown
  | and
  | or
  | not
  | greaterThan
  | lessThan
  | equals
  | setVariableTo
  | changeVariableBy
  | showVariable
  | hideVariable
  | addToList
  | deleteOfList
  | deleteAllOfList
  | insertAtList
  | replaceItemOfList
  | penDown
  | penUp
  | eraseAll
  | stamp
  | setPenColor
  | changePenSizeBy
  | setPenSizeTo
  deriving DecidableEq, Repr

namespace Opcode

/-- All opcodes, category by category. -/
def all : List Opcode := [
  .whenFlagClicked, .whenKeyPressed, .whenThisSpriteClicked, .whenBroadcastReceived, .broadcast,
  .broadcastAndWait, .startAsClone, .wait, .repeatTimes, .repeatUntil, .forever, .ifThen, .ifElse, .stop,
  .createCloneOf, .deleteThisClone, .moveSteps, .turnRight, .turnLeft, .goToXY, .goTo, .glideSecsToXY,
  .pointInDirection, .pointTowards, .setX, .setY, .changeXBy, .changeYBy, .ifOnEdgeBounce, .sayForSecs, .say,
  .thinkForSecs, .think, .showSprite, .hideSprite, .switchCostumeTo, .nextCostume, .switchBackdropTo,
  .changeSizeBy, .setSizeTo, .goToFrontBack, .playUntilDone, .startSound, .stopAllSounds, .changeVolumeBy,
  .setVolumeTo, .askAndWait, .resetTimer, .touchingObject, .touchingColor, .keyPressed, .mouseDown, .and,
  .or, .not, .greaterThan, .lessThan, .equals, .setVariableTo, .changeVariableBy, .showVariable,
  .hideVariable, .addToList, .deleteOfList, .deleteAllOfList, .insertAtList, .replaceItemOfList, .penDown,
  .penUp, .eraseAll, .stamp, .setPenColor, .changePenSizeBy, .setPenSizeTo]

/-- The name under which a project stores blocks of this kind. -/
def name : Opcode → String
  | whenFlagClicked => "event_whenflagclicked"
  | whenKeyPressed => "event_whenkeypressed"
  | whenThisSpriteClicked => "event_whenthisspriteclicked"
  | whenBroadcastReceived => "event_whenbroadcastreceived"
  | broadcast => "event_broadcast"
  | broadcastAndWait => "event_broadcastandwait"
  | startAsClone => "control_start_as_clone"
  | wait => "control_wait"
  | repeatTimes => "control_repeat"
  | repeatUntil => "control_repeat_until"
  | forever => "control_forever"
  | ifThen => "control_if"
  | ifElse => "control_if_else"
  | stop => "control_stop"
  | createCloneOf => "control_create_clone_of"
  | deleteThisClone => "control_delete_this_clone"
  | moveSteps => "motion_movesteps"
  | turnRight => "motion_turnright"
  | turnLeft => "motion_turnleft"
  | goToXY => "motion_gotoxy"
  | goTo => "motion_goto"
  | glideSecsToXY => "motion_glidesecstoxy"
  | pointInDirection => "motion_pointindirection"
  | pointTowards => "motion_pointtowards"
  | setX => "motion_setx"
  | setY => "motion_sety"
  | changeXBy => "motion_changexby"
  | changeYBy => "motion_changeyby"
  | ifOnEdgeBounce => "motion_ifonedgebounce"
  | sayForSecs => "looks_sayforsecs"
  | say => "looks_say"
  | thinkForSecs => "looks_thinkforsecs"
  | think => "looks_think"
  | showSprite => "looks_show"
  | hideSprite => "looks_hide"
  | switchCostumeTo => "looks_switchcostumeto"
  | nextCostume => "looks_nextcostume"
  | switchBackdropTo => "looks_switchbackdropto"
  | changeSizeBy => "looks_changesizeby"
  | setSizeTo => "looks_setsizeto"
  | goToFrontBack => "looks_gotofrontback"
  | playUntilDone => "sound_playuntildone"
  | startSound => "sound_play"
  | stopAllSounds => "sound_stopallsounds"
  | changeVolumeBy => "sound_changevolumeby"
  | setVolumeTo => "sound_setvolumeto"
  | askAndWait => "sensing_askandwait"
  | resetTimer => "sensing_resettimer"
  | touchingObject => "sensing_touchingobject"
  | touchingColor => "sensing_touchingcolor"
  | keyPressed => "sensing_keypressed"
  | mouseDown => "sensing_mousedown"
  | and => "operator_and"
  | or => "operator_or"
  | not => "operator_not"
  | greaterThan => "operator_gt"
  | lessThan => "operator_lt"
  | equals => "operator_equals"
  | setVariableTo => "data_setvariableto"
  | changeVariableBy => "data_changevariableby"
  | showVariable => "data_showvariable"
  | hideVariable => "data_hidevariable"
  | addToList => "data_addtolist"
  | deleteOfList => "data_deleteoflist"
  | deleteAllOfList => "data_deletealloflist"
  | insertAtList => "data_insertatlist"
  | replaceItemOfList => "data_replaceitemoflist"
  | penDown => "pen_penDown"
  | penUp => "pen_penUp"
  | eraseAll => "pen_clear"
  | stamp => "pen_stamp"
  | setPenColor => "pen_setPenColorToColor"
  | changePenSizeBy => "pen_changePenSizeBy"
  | setPenSizeTo => "pen_setPenSizeTo"

def category : Opcode → Category
  | whenFlagClicked | whenKeyPressed | whenThisSpriteClicked | whenBroadcastReceived | broadcast
  | broadcastAndWait => .event
  | startAsClone | wait | repeatTimes | repeatUntil | forever | ifThen | ifElse | stop | createCloneOf
  | deleteThisClone => .control
  | moveSteps | turnRight | turnLeft | goToXY | goTo | glideSecsToXY | pointInDirection | pointTowards | setX
  | setY | changeXBy | changeYBy | ifOnEdgeBounce => .motion
  | sayForSecs | say | thinkForSecs | think | showSprite | hideSprite | switchCostumeTo | nextCostume
  | switchBackdropTo | changeSizeBy | setSizeTo | goToFrontBack => .looks
  | playUntilDone | startSound | stopAllSounds | changeVolumeBy | setVolumeTo => .sound
  | askAndWait | resetTimer | touchingObject | touchingColor | keyPressed | mouseDown => .sensing
  | and | or | not | greaterThan | lessThan | equals => .operator
  | setVariableTo | changeVariableBy | showVariable | hideVariable => .data
  | addToList | deleteOfList | deleteAllOfList | insertAtList | replaceItemOfList => .lists
  | penDown | penUp | eraseAll | stamp | setPenColor | changePenSizeBy | setPenSizeTo => .pen

/-- The opcode that is stored under the name. -/
def ofName? (name : String) : Option Opcode :=
  all.find? fun opcode => opcode.name == name

/-- Whether the block starts a script of its own. -/
def isHat : Opcode → Bool
  | whenFlagClicked | whenKeyPressed | whenThisSpriteClicked | whenBroadcastReceived | startAsClone => true
  | _ => false

def opensBody : Opcode → Bool
  | repeatTimes | repeatUntil | forever | ifThen | ifElse => true
  | _ => false

/-- Whether the block can have an else branch. -/
def acceptsElse : Opcode → Bool
  | ifThen | ifElse => true
  | _ => false

end Opcode

end ScratchScript
